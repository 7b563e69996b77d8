import RtmpServer.Cluster.PlaySubscriptions
import RtmpServer.Lib.Pending
import RtmpServer.Media.WireBalance

/-!
# Subscriptions converge

When everything has come to rest, the hub is to hold a reference for exactly the active players of a
stream whose recorded owner is a remote node, at that node, and for the standby where the manager
records one. The tasks in between see nothing of each other: a task carries what its driver knew.

The proof looks at `PlayState.settled`, the references once the tasks that wait have run: a driver's
tasks act on it at once, and a task that overtakes none it conflicts with leaves it alone.
-/

namespace RtmpServer

open List Lib.Replay Lib.Pending Prod AList
open Option hiding all_eq_true map mem_map mem_toFinset or_self

/-! ### What the hub does to its references -/

namespace MediaHub

variable {cfg : HubConfig} {h h' : MediaHub cfg} {peer : UInt64} {key : StreamKey} {now : Nat}

def view (h : MediaHub cfg) : (UInt64 → StreamKey → Finset String) × OwnershipTracker :=
  (h.outbound.refs, h.ownership)

theorem Later.view (hlater : Later h h') : h'.view = h.view :=
  Prod.ext (funext₂ hlater.refs) hlater.ownership

@[simp] theorem view_trySend (h : MediaHub cfg) (peer : UInt64) (msg : MediaMessage) (now : Nat) :
    (h.trySend peer msg now).2.view = h.view := (h.later_trySend peer msg now).view

@[simp] theorem view_setWired (h : MediaHub cfg) (peer : UInt64) (key : StreamKey) (wired : Bool) :
    (h.setWired peer key wired).view = h.view := (h.later_setWired peer key wired).view

@[simp] theorem view_setRetry (h : MediaHub cfg) (i : Nat) (t : RetryTask) (phase : RetryPhase) :
    (h.setRetry i t phase).view = h.view := rfl

@[simp] theorem view_schedule (h : MediaHub cfg) (peer : UInt64) (key : StreamKey)
    (generation : UInt64) (sendRetries : Nat) :
    (h.scheduleSubscribeRetry peer key generation sendRetries).view = h.view := rfl

@[simp] theorem view_retrySend (h : MediaHub cfg) (peer : UInt64) (incarnation : Nat)
    (msg : MediaMessage) (now : Nat) : (h.retrySend peer incarnation msg now).2.view = h.view := by
  rcases h.retrySend_spec peer incarnation msg now with hsend | hsend <;> simp [hsend]

theorem view_retry {i : Nat} {t : RetryTask} {shutdown : Bool}
    (hstep : h.runSubscribeRetry i t shutdown now = some h') : h'.view = h.view := by
  rw [runSubscribeRetry] at hstep
  split at hstep
  case h_5 => split at hstep <;> cases hstep <;> rfl
  case h_7 =>
    dsimp only at hstep
    split_ifs at hstep <;> cases hstep <;> simp
  case h_8 =>
    cases hstep
    simp
  case h_9 => cases hstep
  all_goals
    cases hstep
    rfl

theorem view_answer (h : MediaHub cfg) (a : AnswerTask) : (h.handleAnswer a).view = h.view := by
  rw [handleAnswer]
  split
  case h_3 => exact view_setWired ..
  case h_6 | h_7 => rfl
  case h_1 => split_ifs <;> rfl
  all_goals
    dsimp only
    split_ifs <;> rfl

theorem view_updatePeer {f : MediaPeer cfg.queue → Option (MediaPeer cfg.queue)}
    (hstep : h.updatePeer peer f = some h') : h'.view = h.view := by
  obtain ⟨p, -, hmap⟩ := bind_eq_some_iff.1 hstep
  obtain ⟨p', -, rfl⟩ := map_eq_some_iff.1 hmap
  rfl

theorem view_connectionLost {last : PeerQueue cfg.queue → PeerQueue cfg.queue}
    (hstep : h.connectionLost peer last = some h') : h'.view = h.view := by
  obtain ⟨h₁, hupdate, rfl⟩ := map_eq_some_iff.1 hstep
  have hview : h₁.view = h.view := view_updatePeer hupdate
  exact hview

theorem view_step {op : HubOp} (hop : op.isInternal) (hstep : h.step op = some h') :
    h'.view = h.view := by
  cases op with
  | subscribe | unsubscribe | unsubscribeAll | ownership => cases hop
  | connectPeer peer addr now =>
    cases hstep
    exact (h.later_ensurePeer peer addr now).view
  | resubscribe now =>
    rw [step] at hstep
    split at hstep <;> cases hstep
    exact (later_resubscribePeer _).view
  | retry i shutdown now =>
    obtain ⟨t, -, hrun⟩ := bind_eq_some_iff.1 hstep
    exact view_retry hrun
  | answer =>
    rw [step] at hstep
    split at hstep
    · cases hstep
      exact h.view_answer _
    · split at hstep <;> cases hstep
      rfl
  | heard peer key =>
    cases hstep
    rw [clearSubscribeNacks]
    split_ifs <;> rfl
  | inbound t =>
    cases hstep
    rfl
  | send peer msg now =>
    rw [step] at hstep
    split_ifs at hstep
    cases hstep
    exact h.view_trySend ..
  | dial | connected | dialFails | versionRejected | write | ownerReads =>
    exact view_updatePeer hstep
  | writeFails peer now =>
    have hlost : h.connectionLost peer (fun queue => (queue.pop now).2) = some h' := hstep
    exact view_connectionLost hlost
  | connectionLost => exact view_connectionLost hstep
  | owner peer op sent =>
    rw [step] at hstep
    split at hstep
    · split at hstep
      · obtain ⟨r, -, rfl⟩ := map_eq_some_iff.1 hstep
        rfl
      · cases hstep
    · cases hstep

/-- `subscribe_remote` does not take its reference back: it has no `Subscribe` to send, the queue of
the peer has room for it, or the key has another reference. -/
def keepsRef (h : MediaHub cfg) (peer : UInt64) (key : StreamKey) (addr : String) (epoch : UInt64)
    (owner : String) (now : Nat) : Bool :=
  let h := (h.addRef peer key owner).ensurePeer peer addr now
  addr == "" || h.outbound.isWired peer key || h.ownsStream key ||
    (h.trySend peer (h.subscribeMessage peer key epoch) now).1 ||
    decide (h.outbound.refs peer key ≠ {owner})

/-- The end of `subscribe_remote` keeps the tracker, and the references unless it takes back its own. -/
theorem view_sendSubscribe (h : MediaHub cfg) (peer : UInt64) (key : StreamKey) (epoch : UInt64)
    (owner : String) (now : Nat) :
    (h.sendSubscribe peer key epoch owner now).2.ownership = h.ownership ∧
    ((h.trySend peer (h.subscribeMessage peer key epoch) now).1 ∨
      h.outbound.refs peer key ≠ {owner} →
      (h.sendSubscribe peer key epoch owner now).1 ∧
        (h.sendSubscribe peer key epoch owner now).2.view = h.view) := by
  rw [sendSubscribe]
  dsimp only
  have hview := h.view_trySend peer (h.subscribeMessage peer key epoch) now
  generalize h.trySend peer (h.subscribeMessage peer key epoch) now = r at hview ⊢
  obtain ⟨hrefs, hown⟩ := Prod.mk.inj hview
  by_cases hsent : r.1 = true
  · have hwired := (view_setWired r.2 peer key true).trans hview
    rw [if_pos hsent]
    exact ⟨congrArg Prod.snd hwired, fun _ => ⟨rfl, hwired⟩⟩
  simp only [hsent, Bool.false_eq_true, if_false, false_or]
  rcases @OutboundSubscriptions.removeIfSole_spec r.2.outbound owner peer key with hsole | hsole
  · rw [hsole]
    refine ⟨hown, fun hshared => ?_⟩
    rw [← hrefs] at hshared
    rw [OutboundSubscriptions.removeIfSole_of_shared hshared] at hsole
    exact absurd (congrArg Prod.snd hsole) Bool.false_ne_true
  · rw [hsole]
    dsimp only
    have hagain : (if (r.2.trySend peer (r.2.subscribeMessage peer key epoch) now).1 = true then
        (r.2.trySend peer (r.2.subscribeMessage peer key epoch) now).2.setWired peer key true
        else (r.2.trySend peer (r.2.subscribeMessage peer key epoch) now).2).view = h.view := by
      split_ifs <;> simp [hview]
    exact ⟨congrArg Prod.snd hagain, fun _ => ⟨rfl, hagain⟩⟩

theorem view_addRef (h : MediaHub cfg) (peer : UInt64) (key : StreamKey) (owner : String) :
    (h.addRef peer key owner).view = (fun q k => if (q, k) = (peer, key) then
      insert owner (h.outbound.refs peer key) else h.outbound.refs q k, h.ownership) :=
  Prod.ext (funext₂ fun q k => OutboundSubscriptions.refs_add q k) rfl

theorem subscribeRemote_ownership (h : MediaHub cfg) (peer : UInt64) (key : StreamKey) (addr : String)
    (epoch : UInt64) (owner : String) (now : Nat) :
    (h.subscribeRemote peer key addr epoch owner now).2.ownership = h.ownership := by
  have hpeer : ((h.addRef peer key owner).ensurePeer peer addr now).ownership = h.ownership :=
    ((h.addRef peer key owner).later_ensurePeer peer addr now).ownership
  rw [subscribeRemote]
  dsimp only
  split_ifs
  · rfl
  · exact hpeer
  · exact hpeer
  · exact (view_sendSubscribe ..).1.trans hpeer

theorem subscribeRemote_refs {addr : String} {epoch : UInt64} {owner : String}
    (hkeeps : h.keepsRef peer key addr epoch owner now) :
    (h.subscribeRemote peer key addr epoch owner now).1 ∧
    (h.subscribeRemote peer key addr epoch owner now).2.view = (h.addRef peer key owner).view := by
  have hpeer := ((h.addRef peer key owner).later_ensurePeer peer addr now).view
  rw [keepsRef] at hkeeps
  rw [subscribeRemote]
  dsimp only at hkeeps ⊢
  generalize (h.addRef peer key owner).ensurePeer peer addr now = h₁ at *
  split_ifs with haddr hwired hown
  · exact ⟨rfl, rfl⟩
  · exact ⟨rfl, hpeer⟩
  · exact ⟨rfl, hpeer⟩
  · have hshared := (h₁.view_sendSubscribe peer key epoch owner now).2
      (by simpa [haddr, hwired, hown] using hkeeps)
    exact ⟨hshared.1, hshared.2.trans hpeer⟩

theorem view_finishUnsubscribe (h : MediaHub cfg) (peer : UInt64) (key : StreamKey) (now : Nat) :
    (h.finishUnsubscribe peer key now).view = h.view := view_trySend ..

theorem unsubscribeRemote_refs (h : MediaHub cfg) (peer : UInt64) (key : StreamKey) (owner : String)
    (now : Nat) : (h.unsubscribeRemote peer key owner now).view =
      (fun q k => if (q, k) = (peer, key) then (h.outbound.refs peer key).erase owner
        else h.outbound.refs q k, h.ownership) := by
  have hremove := fun q k => @OutboundSubscriptions.refs_remove h.outbound owner peer key q k
  rw [unsubscribeRemote]
  generalize h.outbound.remove owner peer key = r at *
  obtain ⟨t, last⟩ := r
  cases last with
  | true => exact (view_finishUnsubscribe ..).trans (Prod.ext (funext₂ hremove) rfl)
  | false => exact Prod.ext (funext₂ hremove) rfl

theorem unsubscribeRemoteAll_refs (h : MediaHub cfg) (peer : UInt64) (key : StreamKey) (now : Nat) :
    (h.unsubscribeRemoteAll peer key now).view =
      (fun q k => if (q, k) = (peer, key) then ∅ else h.outbound.refs q k, h.ownership) := by
  have herase := fun q k => @OutboundSubscriptions.refs_erase h.outbound peer key q k
  rw [unsubscribeRemoteAll, OutboundSubscriptions.removeAll]
  cases h.outbound.has peer key with
  | true => exact (view_finishUnsubscribe ..).trans (Prod.ext (funext₂ herase) rfl)
  | false => exact Prod.ext (funext₂ herase) rfl

end MediaHub

/-! ### Tasks and the references to come -/

def PlayTask.change : PlayTask → SetChange PeerKey String
  | .subscribe _ peer key _ session => ⟨(peer, key), some session, fun _ => false⟩
  | .standby _ peer key _ => ⟨(peer, key), some standbySubOwner, fun _ => false⟩
  | .unsubscribe session peer key => ⟨(peer, key), none, (· == session)⟩
  | .unsubscribeAll peer key => ⟨(peer, key), none, fun _ => true⟩

namespace PlayState

variable {cfg : PlayConfig} {s s' : PlayState cfg} {node : UInt64} {key : StreamKey} {sid x : String}
variable {t : PlayTask} {tasks : List PlayTask} {old : Option (UInt64 × UInt64)} {op : PlayOp}

/-- The references of a key once the tasks that wait have run. -/
def settled (s : PlayState cfg) (node : UInt64) (key : StreamKey) : Finset String :=
  settle (node, key) (s.hub.outbound.refs node key) (s.tasks.map PlayTask.change)

theorem settled_spawn (s : PlayState cfg) (tasks : List PlayTask) (node : UInt64) (key : StreamKey) :
    (s.spawn tasks).settled node key =
      settle (node, key) (s.settled node key) (tasks.map PlayTask.change) := by
  rw [settled, spawn, map_append, settle_append]
  rfl

theorem mem_settled_spawn_of_kept
    (h : ∀ t ∈ tasks, t.change.target = (node, key) → t.change.drops x = false) :
    x ∈ (s.spawn tasks).settled node key ↔
      x ∈ s.settled node key ∨
        ∃ t ∈ tasks, t.change.target = (node, key) ∧ t.change.adds = some x := by
  rw [settled_spawn, mem_settle_of_kept (by simpa using h)]
  simp

theorem mem_settled_spawn_of_unadded
    (h : ∀ t ∈ tasks, t.change.target = (node, key) → t.change.adds ≠ some x) :
    x ∈ (s.spawn tasks).settled node key ↔
      x ∈ s.settled node key ∧
        ∀ t ∈ tasks, t.change.target = (node, key) → t.change.drops x = false := by
  rw [settled_spawn, mem_settle_of_unadded (by simpa using h)]
  simp

def ownerNode (s : PlayState cfg) (sid : String) : Option UInt64 := (s.owners.lookup sid).map fst

def trackedNode (s : PlayState cfg) (sid : String) : Option UInt64 :=
  (s.hub.ownership.get sid).map fst

theorem mem_activePlayers : x ∈ s.activePlayers sid ↔ s.players.lookup x = some sid := by
  rw [activePlayers, mem_map]
  constructor
  · rintro ⟨⟨y, sid'⟩, he, rfl⟩
    obtain ⟨hmem, hsid⟩ := mem_filter.1 he
    exact mem_lookup_iff.2 (eq_of_beq hsid ▸ hmem)
  · intro h
    exact ⟨⟨x, sid⟩, mem_filter.2 ⟨mem_lookup_iff.1 h, beq_self_eq_true sid⟩, rfl⟩

/-! ### What the drivers spawn -/

theorem mem_notifyPlaySubscription :
    t ∈ s.notifyPlaySubscription x key ↔
      ∃ node epoch addr, s.owners.lookup key.2 = some (node, epoch) ∧ node ≠ cfg.nodeId ∧
        s.nodeMeta.lookup node = some addr ∧ t = .subscribe addr node key epoch x := by
  grind [notifyPlaySubscription]

theorem mem_notifyPlayUnsubscribe :
    t ∈ s.notifyPlayUnsubscribe x key ↔
      ∃ node, (s.trackedNode key.2).or (s.ownerNode key.2) = some node ∧ node ≠ cfg.nodeId ∧
        t = .unsubscribe x node key := by
  rw [trackedNode, ownerNode, ← map_or, notifyPlayUnsubscribe]
  cases (s.hub.ownership.get key.2).or (s.owners.lookup key.2) <;> grind

theorem mem_unsubscribeCapturedRemoteOwners {previous : List (String × Option (UInt64 × UInt64))} :
    t ∈ s.unsubscribeCapturedRemoteOwners previous ↔
      ∃ sid node epoch, (sid, some (node, epoch)) ∈ previous ∧ node ≠ cfg.nodeId ∧
        s.trackedNode sid ≠ some node ∧ t = .unsubscribeAll node (cfg.key sid) := by
  rw [unsubscribeCapturedRemoteOwners, mem_flatMap]
  constructor
  · rintro ⟨⟨sid, old⟩, hmem, ht⟩
    grind [trackedNode]
  · rintro ⟨sid, node, epoch, hmem, hlocal, hsame, rfl⟩
    exact ⟨_, hmem, by grind [trackedNode]⟩

theorem mem_resubscribeActivePlayers {sids : List String} :
    t ∈ s.resubscribeActivePlayers sids ↔
      ∃ sid ∈ sids, ∃ x, s.players.lookup x = some sid ∧
        t ∈ s.notifyPlaySubscription x (cfg.key sid) := by
  simp only [resubscribeActivePlayers, mem_flatMap, mem_activePlayers]

theorem mem_standbyTasks {old new : Option UInt64} :
    t ∈ s.standbyTasks key old new ↔ old ≠ new ∧
      ((∃ node, old = some node ∧ t = .unsubscribe standbySubOwner node key) ∨
        ∃ node addr, new = some node ∧ s.standbyAddress node = some addr ∧
          t = .standby addr node key (((s.owners.lookup key.2).map snd).getD 0)) := by
  rw [standbyTasks]
  by_cases heq : old = new
  · simp [heq]
  · cases old <;> cases new <;> simp_all [eq_comm]

theorem lookup_foldl_erase {desired : AList fun _ : StreamKey => UInt64} (lacks : StreamKey → Bool)
    (keys : List StreamKey) :
    (keys.foldl (fun m key => if lacks key then m.erase key else m) desired).lookup key = some node ↔
      desired.lookup key = some node ∧ ¬ (key ∈ keys ∧ lacks key) := by
  induction keys generalizing desired with
  | nil => simp
  | cons k keys ih => grind

theorem desiredStandbys_owner (h : s.desiredStandbys.lookup key = some node) :
    s.ownerNode key.2 = some node := by
  revert key node
  refine foldlRecOn (motive := fun desired : AList fun _ : StreamKey => UInt64 =>
    ∀ {node key}, desired.lookup key = some node → s.ownerNode key.2 = some node) cfg.streams _
    (fun h => by simp at h) ?_
  intro desired hdesired stream _ node key hlook
  grind [ownerNode]

/-! ### A task that runs -/

def keepsRef (s : PlayState cfg) (now : Nat) : PlayTask → Bool
  | .subscribe addr peer key epoch session => s.hub.keepsRef peer key addr epoch session now
  | .standby addr peer key epoch => s.hub.keepsRef peer key addr epoch standbySubOwner now
  | .unsubscribe .. | .unsubscribeAll .. => true

theorem runTask_spec {now : Nat} (hkeeps : s.keepsRef now t) :
    ∃ hub, s.runTask now t = { s with hub } ∧ hub.ownership = s.hub.ownership ∧
      ∀ node key, hub.outbound.refs node key =
        t.change.applyAt (node, key) (s.hub.outbound.refs node key) := by
  have happly : ∀ {hub : MediaHub cfg.hub} {f : UInt64 → StreamKey → Finset String},
      hub.view = (f, s.hub.ownership) → s.runTask now t = { s with hub } →
      (∀ q k x, x ∈ f q k ↔ (t.change.target = (q, k) ∧ t.change.adds = some x) ∨
        (x ∈ s.hub.outbound.refs q k ∧ (t.change.target = (q, k) → t.change.drops x = false))) →
      ∃ hub, s.runTask now t = { s with hub } ∧ hub.ownership = s.hub.ownership ∧
        ∀ node key, hub.outbound.refs node key =
          t.change.applyAt (node, key) (s.hub.outbound.refs node key) :=
    fun hview hrun hf => ⟨_, hrun, congrArg snd hview, fun q k =>
      (congrFun₂ (congrArg fst hview) q k).trans
        (Finset.ext fun x => (hf q k x).trans SetChange.mem_applyAt.symm)⟩
  cases t with
  | subscribe addr peer key epoch session =>
    refine happly ((MediaHub.subscribeRemote_refs hkeeps).2.trans (MediaHub.view_addRef ..)) rfl ?_
    grind [PlayTask.change]
  | standby addr peer key epoch =>
    obtain ⟨hsent, hview⟩ := MediaHub.subscribeRemote_refs hkeeps
    refine happly (hview.trans (MediaHub.view_addRef ..)) ?_ ?_
    · rw [runTask]
      grind
    · grind [PlayTask.change]
  | unsubscribe session peer key =>
    refine happly (s.hub.unsubscribeRemote_refs peer key session now) rfl ?_
    grind [PlayTask.change]
  | unsubscribeAll peer key =>
    refine happly (s.hub.unsubscribeRemoteAll_refs peer key now) rfl ?_
    grind [PlayTask.change]

/-- The task at a position conflicts with none of those before it. -/
def inOrder (s : PlayState cfg) (i : Nat) (t : PlayTask) : Bool :=
  (s.tasks.take i).all fun u => !t.change.conflicts u.change

theorem run_spec {i now : Nat} (ht : s.tasks[i]? = some t) (horder : s.inOrder i t)
    (hkeeps : s.keepsRef now t) (hstep : s.step (.run i now) = some s') :
    ∃ hub, s' = { s with hub, tasks := s.tasks.eraseIdx i } ∧ hub.ownership = s.hub.ownership ∧
      ∀ node key, s'.settled node key = s.settled node key := by
  have hkeeps' : ({ s with tasks := s.tasks.eraseIdx i } : PlayState cfg).keepsRef now t = true := by
    cases t <;> exact hkeeps
  obtain ⟨hub, hrun, hown, hrefs⟩ := runTask_spec hkeeps'
  rw [step, ht, map_some, hrun] at hstep
  cases hstep
  refine ⟨hub, rfl, hown, fun node key => ?_⟩
  obtain ⟨hi, rfl⟩ := List.getElem?_eq_some_iff.1 ht
  have htasks : s.tasks = s.tasks.take i ++ s.tasks[i] :: s.tasks.drop (i + 1) := by
    rw [List.getElem_cons_drop, List.take_append_drop]
  have hbefore : ∀ d ∈ (s.tasks.take i).map PlayTask.change,
      s.tasks[i].change.conflicts d = false := by
    intro d hd
    obtain ⟨u, hu, rfl⟩ := mem_map.1 hd
    simpa using all_eq_true.1 horder u hu
  calc settle (node, key) (hub.outbound.refs node key) ((s.tasks.eraseIdx i).map PlayTask.change)
      = settle (node, key) (s.tasks[i].change.applyAt (node, key) (s.hub.outbound.refs node key))
          ((s.tasks.take i).map PlayTask.change ++ (s.tasks.drop (i + 1)).map PlayTask.change) := by
        rw [hrefs, eraseIdx_eq_take_drop_succ, map_append]
    _ = settle (node, key) (s.hub.outbound.refs node key) (s.tasks.map PlayTask.change) := by
        rw [settle_overtake hbefore, ← map_cons, ← map_append, ← htasks]

/-! ### The condition -/

def agrees (s : PlayState cfg) (sid : String) : Bool := s.trackedNode sid = s.ownerNode sid

/-- The address of the owner is known, if the owner is a remote one. -/
def knowsOwner (s : PlayState cfg) (sid : String) : Bool :=
  (s.ownerNode sid).all fun node => node = cfg.nodeId || (s.nodeMeta.lookup node).isSome

/-- The session holds a reference at the owner in the database, or awaits it. -/
def atOwner (s : PlayState cfg) (sid x : String) : Bool :=
  (s.ownerNode sid).any fun node => x ∈ s.settled node (cfg.key sid)

/-- Every active player of the stream holds or awaits a reference at a remote node. -/
def allAt (s : PlayState cfg) (sid : String) (node : UInt64) : Bool :=
  node = cfg.nodeId || (s.activePlayers sid).all fun x => x ∈ s.settled node (cfg.key sid)

/-- A standby recorded at the node for the stream has kept its reference. -/
def standbyKept (s : PlayState cfg) (sid : String) (node : UInt64) : Bool :=
  s.standbySubs.entries.all fun e =>
    e.1.2 ≠ sid || e.2 ≠ node || standbySubOwner ∈ s.settled node e.1

/-- The condition of `subscriptions_converge` on a step.

- `run`: a task does not overtake one that adds what it drops, or drops what it adds, and its
  `subscribe_remote` does not have to take back a reference no other one shares.
- `owner`: a stream goes to another node only if none of its players already turned to the present
  owner ahead of the tracker. If it goes back to the node in the tracker, its players all have
  their references there, and if to one that still stands in `standby_subs`, so has the standby.
- `start`: the address of the owner is known, if the tracker has that owner too.
- `stop`: the player has not turned to an owner the tracker does not know while it knows another.
- `sync`: the address of a new owner of a stream with players is known. -/
def orderly (s : PlayState cfg) : PlayOp → Bool
  | .run i now => (s.tasks[i]?).all fun t => s.inOrder i t && s.keepsRef now t
  | .owner sid owner =>
    let new := owner.map fst
    new = s.ownerNode sid ||
      ((s.agrees sid || (s.activePlayers sid).all fun x => !s.atOwner sid x) &&
        new.all fun node =>
          (s.trackedNode sid ≠ some node || s.allAt sid node) && s.standbyKept sid node)
  | .start _ sid => !s.agrees sid || s.knowsOwner sid
  | .stop x =>
    (s.players.lookup x).all fun sid =>
      s.agrees sid || (s.trackedNode sid).isNone || !s.atOwner sid x
  | .sync =>
    s.players.entries.all fun e =>
      s.hub.ownership.get e.2 = s.owners.lookup e.2 || s.knowsOwner e.2
  | _ => true

/-! ### The invariant -/

/-- Who may have a reference once the tasks that wait have run: a player at the owner in the tracker
or the database, and the standby where it is recorded. -/
structure Sound (s : PlayState cfg) : Prop where
  sessions : ∀ x sid, s.players.lookup x = some sid → x ≠ standbySubOwner
  player : ∀ node key x, x ≠ standbySubOwner → x ∈ s.settled node key →
    s.players.lookup x = some key.2 ∧ key = cfg.key key.2 ∧ node ≠ cfg.nodeId ∧
      (s.trackedNode key.2 = some node ∨ s.ownerNode key.2 = some node)
  recorded : ∀ node key, standbySubOwner ∈ s.settled node key → s.standbySubs.lookup key = some node
  placed : ∀ node key, s.standbySubs.lookup key = some node → s.ownerNode key.2 = some node →
    standbySubOwner ∈ s.settled node key

/-- And a player has one where tracker and database agree on the owner. -/
structure Inv (s : PlayState cfg) : Prop extends Sound s where
  complete : ∀ sid node x, s.players.lookup x = some sid → s.trackedNode sid = some node →
    s.ownerNode sid = some node → node ≠ cfg.nodeId → x ∈ s.settled node (cfg.key sid)

theorem inv_new : Inv (new : PlayState cfg) where
  sessions x sid h := by simp [new] at h
  player node key x _ h := by simp [new, settled, settle, MediaHub.new, OutboundSubscriptions.refs] at h
  complete sid node x h := by simp [new] at h
  recorded node key h := by
    simp [new, settled, settle, MediaHub.new, OutboundSubscriptions.refs] at h
  placed node key h := by simp [new] at h

theorem Inv.of_same (hs : Inv s) (hplayers : s'.players = s.players)
    (howner : ∀ sid, s'.ownerNode sid = s.ownerNode sid)
    (htracker : s'.hub.ownership = s.hub.ownership) (hsubs : s'.standbySubs = s.standbySubs)
    (hsettled : ∀ node key, s'.settled node key = s.settled node key) : Inv s' := by
  have htracked : ∀ sid, s'.trackedNode sid = s.trackedNode sid := fun sid => by
    rw [trackedNode, trackedNode, htracker]
  refine ⟨⟨?_, ?_, ?_, ?_⟩, ?_⟩
  · simpa only [hplayers] using hs.sessions
  · simpa only [hplayers, howner, htracked, hsettled] using hs.player
  · simpa only [hsubs, hsettled] using hs.recorded
  · simpa only [hsubs, howner, hsettled] using hs.placed
  · simpa only [hplayers, howner, htracked, hsettled] using hs.complete

/-! ### Players -/

theorem Sound.subscribes (hs : Sound s)
    (htasks : ∀ t ∈ tasks, ∃ sid x, s.players.lookup x = some sid ∧
      t ∈ s.notifyPlaySubscription x (cfg.key sid))
    (hcomplete : ∀ sid node x, s.players.lookup x = some sid → s.trackedNode sid = some node →
      s.ownerNode sid = some node → node ≠ cfg.nodeId →
      x ∈ s.settled node (cfg.key sid) ∨
        ∃ addr epoch, .subscribe addr node (cfg.key sid) epoch x ∈ tasks) :
    Inv (s.spawn tasks) := by
  have hmem : ∀ node key x, x ∈ (s.spawn tasks).settled node key ↔
      x ∈ s.settled node key ∨
        ∃ t ∈ tasks, t.change.target = (node, key) ∧ t.change.adds = some x := by
    intro node key x
    refine mem_settled_spawn_of_kept fun t ht _ => ?_
    obtain ⟨sid, y, -, hnotify⟩ := htasks t ht
    obtain ⟨_, _, _, -, -, -, rfl⟩ := mem_notifyPlaySubscription.1 hnotify
    rfl
  refine ⟨⟨hs.sessions, fun node key x hx hsettled => ?_, fun node key hsettled => ?_,
    fun node key hsubs howner => (hmem ..).2 (.inl (hs.placed node key hsubs howner))⟩, ?_⟩
  · rcases (hmem ..).1 hsettled with hold | ⟨t, ht, htarget, hadds⟩
    · exact hs.player node key x hx hold
    · obtain ⟨sid, y, hplayer, hnotify⟩ := htasks t ht
      obtain ⟨owner, epoch, addr, howner, hremote, -, rfl⟩ := mem_notifyPlaySubscription.1 hnotify
      cases htarget
      cases hadds
      refine ⟨hplayer, rfl, hremote, .inr ?_⟩
      show (s.owners.lookup _).map fst = _
      rw [howner]
      rfl
  · rcases (hmem ..).1 hsettled with hold | ⟨t, ht, -, hadds⟩
    · exact hs.recorded node key hold
    · obtain ⟨sid, y, hplayer, hnotify⟩ := htasks t ht
      obtain ⟨_, _, _, -, -, -, rfl⟩ := mem_notifyPlaySubscription.1 hnotify
      exact absurd (some.inj hadds) (hs.sessions y sid hplayer)
  · intro sid node x hplayer htracked howner hremote
    rcases hcomplete sid node x hplayer htracked howner hremote with hold | ⟨addr, epoch, ht⟩
    · exact (hmem ..).2 (.inl hold)
    · exact (hmem ..).2 (.inr ⟨_, ht, rfl, rfl⟩)

theorem subscribe_mem_notify (hknows : s.knowsOwner sid) (howner : s.ownerNode sid = some node)
    (hremote : node ≠ cfg.nodeId) :
    ∃ addr epoch, .subscribe addr node (cfg.key sid) epoch x ∈
      s.notifyPlaySubscription x (cfg.key sid) := by
  have haddr : (s.nodeMeta.lookup node).isSome = true := by
    simpa [knowsOwner, howner, hremote] using hknows
  obtain ⟨addr, haddr⟩ := isSome_iff_exists.1 haddr
  obtain ⟨⟨_, epoch⟩, hlook, rfl⟩ := map_eq_some_iff.1 howner
  exact ⟨addr, epoch, mem_notifyPlaySubscription.2 ⟨_, epoch, addr, hlook, hremote, haddr, rfl⟩⟩

theorem Inv.start (hs : Inv s) (hok : s.orderly (.start x sid))
    (hstep : s.step (.start x sid) = some s') : Inv s' := by
  rw [step] at hstep
  split_ifs at hstep with hrefused
  cases hstep
  have hsound : Sound { s with players := s.players.insert x sid } := by
    refine ⟨by grind [hs.sessions], fun node key y hy hsettled => ?_, hs.recorded, hs.placed⟩
    obtain ⟨hplayer, hrest⟩ := hs.player node key y hy hsettled
    exact ⟨by grind, hrest⟩
  refine hsound.subscribes (fun t ht => ⟨sid, x, lookup_insert _, ht⟩) ?_
  intro sid' node y hy htracked howner hremote
  by_cases hyx : y = x
  · subst hyx
    obtain rfl : sid = sid' := some.inj ((lookup_insert _).symm.trans hy)
    have hagrees : s.agrees sid = true := decide_eq_true (htracked.trans howner.symm)
    have hknows : s.knowsOwner sid = true := by simpa [orderly, hagrees] using hok
    exact .inr (subscribe_mem_notify hknows howner hremote)
  · exact .inl (hs.complete sid' node y (by grind) htracked howner hremote)

theorem Inv.resubscribe (hs : Inv s) (sids : List String) :
    Inv (s.spawn (s.resubscribeActivePlayers sids)) := by
  refine hs.toSound.subscribes (fun t ht => ?_) fun sid node x hx htracked howner hremote =>
    .inl (hs.complete sid node x hx htracked howner hremote)
  obtain ⟨sid, -, x, hplayer, hnotify⟩ := mem_resubscribeActivePlayers.1 ht
  exact ⟨sid, x, hplayer, hnotify⟩

theorem mem_settled_unsubscribe {y : String} :
    y ∈ (s.spawn (s.notifyPlayUnsubscribe x (cfg.key sid))).settled node key ↔
      y ∈ s.settled node key ∧ ¬ (y = x ∧ key = cfg.key sid ∧ node ≠ cfg.nodeId ∧
        (s.trackedNode sid).or (s.ownerNode sid) = some node) := by
  refine (mem_settled_spawn_of_unadded fun t ht _ => ?_).trans (and_congr_right fun _ => ?_)
  · obtain ⟨_, -, -, rfl⟩ := mem_notifyPlayUnsubscribe.1 ht
    simp [PlayTask.change]
  · constructor
    · rintro h ⟨rfl, rfl, hremote, hnode⟩
      have := h _ (mem_notifyPlayUnsubscribe.2 ⟨node, hnode, hremote, rfl⟩) rfl
      simp [PlayTask.change] at this
    · intro h t ht htarget
      obtain ⟨_, hnode, hremote, rfl⟩ := mem_notifyPlayUnsubscribe.1 ht
      cases htarget
      exact beq_false_of_ne fun hyx => h ⟨hyx, rfl, hremote, hnode⟩

theorem Inv.stop_node (hs : Inv s) (hok : s.orderly (.stop x))
    (hx : s.players.lookup x = some sid) (hheld : x ∈ s.settled node (cfg.key sid)) :
    (s.trackedNode sid).or (s.ownerNode sid) = some node := by
  obtain ⟨-, -, -, htracked | howner⟩ := hs.player node (cfg.key sid) x (hs.sessions x sid hx) hheld
  · exact or_eq_some_iff.2 (.inl htracked)
  · have howner : s.ownerNode sid = some node := howner
    have hcases : s.agrees sid = true ∨ s.trackedNode sid = none := by
      simpa [orderly, hx, atOwner, howner, hheld] using hok
    rcases hcases with hagrees | hnone
    · rw [of_decide_eq_true hagrees, howner]
      rfl
    · rw [hnone, howner]
      rfl

theorem Inv.stop (hs : Inv s) (hok : s.orderly (.stop x))
    (hstep : s.step (.stop x) = some s') : Inv s' := by
  rw [step] at hstep
  obtain ⟨sid, hx, rfl⟩ := map_eq_some_iff.1 hstep
  dsimp only
  have hmem := fun node key y => @mem_settled_unsubscribe cfg
    { s with players := s.players.erase x } node key sid x y
  have herased : ∀ y sid', (s.players.erase x).lookup y = some sid' ↔
      y ≠ x ∧ s.players.lookup y = some sid' := by grind
  refine ⟨⟨fun y sid' hy => hs.sessions y sid' ((herased y sid').1 hy).2,
    fun node key y hy hsettled => ?_,
    fun node key hsettled => hs.recorded node key ((hmem ..).1 hsettled).1,
    fun node key hsubs howner => (hmem ..).2 ⟨hs.placed node key hsubs howner, fun hdrop =>
      hs.sessions x sid hx hdrop.1.symm⟩⟩, fun sid' node y hy htracked howner hremote => ?_⟩
  · obtain ⟨hold, hkept⟩ := (hmem ..).1 hsettled
    obtain ⟨hplayer, hkey, hremote, hnode⟩ := hs.player node key y hy hold
    refine ⟨(herased ..).2 ⟨?_, hplayer⟩, hkey, hremote, hnode⟩
    rintro rfl
    obtain rfl : sid = key.2 := some.inj (hx.symm.trans hplayer)
    exact hkept ⟨rfl, hkey, hremote, hs.stop_node hok hx (hkey ▸ hold)⟩
  · obtain ⟨hyx, hplayer⟩ := (herased ..).1 hy
    exact (hmem ..).2 ⟨hs.complete sid' node y hplayer htracked howner hremote, fun h => hyx h.1⟩

/-! ### Ownership -/

theorem Inv.owner (hs : Inv s) {owner : Option (UInt64 × UInt64)}
    (hok : s.orderly (.owner sid owner)) (hstep : s.step (.owner sid owner) = some s') :
    Inv s' := by
  obtain ⟨owners, hlook, rfl⟩ : ∃ owners : AList fun _ : String => UInt64 × UInt64,
      (∀ sid', owners.lookup sid' = if sid' = sid then owner else s.owners.lookup sid') ∧
        s' = { s with owners } := by
    cases owner <;> cases hstep <;> exact ⟨_, by grind, rfl⟩
  have howner : ∀ sid', ({ s with owners } : PlayState cfg).ownerNode sid' =
      if sid' = sid then owner.map fst else s.ownerNode sid' := by grind [ownerNode]
  by_cases hsame : owner.map fst = s.ownerNode sid
  · exact hs.of_same rfl (by grind) rfl rfl fun _ _ => rfl
  simp only [orderly, hsame, decide_false, Bool.false_or, Bool.and_eq_true, Bool.or_eq_true,
    all_eq_true, Option.all_eq_true] at hok
  obtain ⟨hahead, hback⟩ := hok
  refine ⟨⟨hs.sessions, fun node key x hx hsettled => ?_, hs.recorded,
    fun node key hsubs hnode => ?_⟩, fun sid' node x hx htracked hnode hremote => ?_⟩
  · have hsettled : x ∈ s.settled node key := hsettled
    obtain ⟨hplayer, hkey, hremote, hnode⟩ := hs.player node key x hx hsettled
    refine ⟨hplayer, hkey, hremote, ?_⟩
    rw [howner]
    by_cases h : key.2 = sid
    · subst h
      refine .inl (hnode.elim id fun hnode => ?_)
      rcases hahead with hagrees | hnone
      · exact (of_decide_eq_true hagrees).trans hnode
      · have hnot := hnone x (mem_activePlayers.2 hplayer)
        rw [atOwner, hnode, any_some, ← hkey] at hnot
        simp [hsettled] at hnot
    · rwa [if_neg h]
  · rw [howner] at hnode
    split_ifs at hnode with h
    · have hkept := all_eq_true.1 (hback node hnode).2 ⟨key, node⟩ (mem_lookup_iff.1 hsubs)
      have hkept : standbySubOwner ∈ s.settled node key := by simpa [h] using hkept
      exact hkept
    · exact hs.placed node key hsubs hnode
  · rw [howner] at hnode
    split_ifs at hnode with h
    · subst h
      have htracked : s.trackedNode sid' = some node := htracked
      have hall : s.allAt sid' node = true := by simpa [htracked] using (hback node hnode).1
      rw [allAt, decide_eq_false hremote, Bool.false_or, all_eq_true] at hall
      exact of_decide_eq_true (hall x (mem_activePlayers.2 hx))
    · exact hs.complete sid' node x hx htracked hnode hremote

theorem lookup_ofRows (s : PlayState cfg) (sid : String) :
    (OwnershipTracker.ofRows s.ownerRows).lookup sid = s.owners.lookup sid := by
  suffices hfold : ∀ (l : List ((_ : String) × (UInt64 × UInt64))), l.NodupKeys →
      ∀ m : AList fun _ : String => UInt64 × UInt64,
        ((l.map fun e => (⟨e.1, e.2.1, e.2.2, 0⟩ : StreamOwner)).foldl
          (fun m o => m.insert o.streamId (o.ownerNodeId, o.epoch)) m).lookup sid =
          (l.dlookup sid).or (m.lookup sid) by
    exact (hfold s.owners.entries s.owners.nodupKeys ∅).trans (or_none)
  intro l
  induction l with
  | nil => exact fun _ _ => rfl
  | cons e l ih =>
    obtain ⟨k, owner⟩ := e
    intro hnodup m
    obtain ⟨hk, hnodup⟩ := nodupKeys_cons.1 hnodup
    rw [map_cons, foldl_cons, ih hnodup]
    by_cases h : sid = k
    · subst h
      rw [dlookup_eq_none.2 hk, dlookup_cons_eq]
      exact lookup_insert _
    · rw [dlookup_cons_ne _ _ h]
      exact congrArg _ (lookup_insert_ne h)

theorem mem_changed {t : OwnershipTracker} {rows : List StreamOwner} :
    (sid, old) ∈ (t.syncFrom rows).2 ↔
      old = t.get sid ∧ t.get sid ≠ (OwnershipTracker.ofRows rows).lookup sid := by
  have hlook : ∀ m : AList fun _ : String => UInt64 × UInt64,
      sid ∈ m.keys ↔ m.lookup sid ≠ none := fun m =>
    mem_keys.symm.trans (lookup_eq_none.not_left.symm)
  simp only [OwnershipTracker.syncFrom, mem_map, mem_append, mem_filter,
    Prod.mk.injEq, bne_iff_ne, isNone_iff_eq_none]
  grind [OwnershipTracker.get]

theorem syncOwnershipFromDb_get (s : PlayState cfg) (sid : String) :
    s.syncOwnershipFromDb.hub.ownership.get sid = s.owners.lookup sid := s.lookup_ofRows sid

/-- The first half of a sync: the tracker has the new owners, and the references at the old ones are
on their way out. -/
def dropOldOwners (s : PlayState cfg) : PlayState cfg :=
  let (ownership, changed) := s.hub.ownership.syncFrom s.ownerRows
  let s := { s with hub := { s.hub with ownership } }
  s.spawn (s.unsubscribeCapturedRemoteOwners changed)

theorem mem_changed_iff :
    (sid, old) ∈ (s.hub.ownership.syncFrom s.ownerRows).2 ↔
      old = s.hub.ownership.get sid ∧ s.hub.ownership.get sid ≠ s.owners.lookup sid := by
  rw [mem_changed, lookup_ofRows]

theorem trackedNode_dropOldOwners (s : PlayState cfg) (sid : String) :
    s.dropOldOwners.trackedNode sid = s.ownerNode sid :=
  congrArg (Option.map fst) (s.lookup_ofRows sid)

theorem mem_settled_dropOldOwners :
    x ∈ s.dropOldOwners.settled node key ↔ x ∈ s.settled node key ∧
      ¬ (key = cfg.key key.2 ∧ node ≠ cfg.nodeId ∧ s.trackedNode key.2 = some node ∧
        s.ownerNode key.2 ≠ some node) := by
  refine (mem_settled_spawn_of_unadded fun t ht _ => ?_).trans (and_congr_right fun _ => ?_)
  · obtain ⟨_, _, _, -, -, -, rfl⟩ := mem_unsubscribeCapturedRemoteOwners.1 ht
    exact fun h => by cases h
  · constructor
    · rintro h ⟨hkey, hremote, hold, hother⟩
      obtain ⟨⟨_, epoch⟩, hget, rfl⟩ := map_eq_some_iff.1 hold
      have hchanged : s.hub.ownership.get key.2 ≠ s.owners.lookup key.2 := by
        grind [ownerNode, trackedNode]
      have ht := mem_unsubscribeCapturedRemoteOwners.2 ⟨key.2, _, epoch,
        mem_changed_iff.2 ⟨hget.symm, hchanged⟩, hremote,
        fun h => hother ((s.trackedNode_dropOldOwners _).symm.trans h), rfl⟩
      rw [← hkey] at ht
      cases h _ ht rfl
    · intro h t ht htarget
      obtain ⟨sid, node, epoch, hmem, hremote, hother, rfl⟩ :=
        mem_unsubscribeCapturedRemoteOwners.1 ht
      cases htarget
      refine absurd ⟨rfl, hremote, ?_, fun h =>
        hother ((s.trackedNode_dropOldOwners sid).trans h)⟩ h
      exact congrArg (Option.map fst) (mem_changed_iff.1 hmem).1.symm

theorem Inv.dropOldOwners (hs : Inv s) : Sound s.dropOldOwners := by
  refine ⟨hs.sessions, fun node key x hx hsettled => ?_, fun node key hsettled =>
    hs.recorded node key (mem_settled_dropOldOwners.1 hsettled).1, fun node key hsubs howner =>
    mem_settled_dropOldOwners.2 ⟨hs.placed node key hsubs howner, fun h => h.2.2.2 howner⟩⟩
  obtain ⟨hold, hkept⟩ := mem_settled_dropOldOwners.1 hsettled
  obtain ⟨hplayer, hkey, hremote, hnode⟩ := hs.player node key x hx hold
  refine ⟨hplayer, hkey, hremote, .inr (hnode.elim (fun hnode => ?_) id)⟩
  by_contra hother
  exact hkept ⟨hkey, hremote, hnode, hother⟩

theorem Inv.sync (hs : Inv s) (hok : s.orderly .sync) : Inv s.syncOwnershipFromDb := by
  refine hs.dropOldOwners.subscribes (fun t ht => ?_) fun sid node x hx _ howner hremote => ?_
  · obtain ⟨sid, -, x, hplayer, hnotify⟩ := mem_resubscribeActivePlayers.1 ht
    exact ⟨sid, x, hplayer, hnotify⟩
  · have hcase := all_eq_true.1 hok ⟨x, sid⟩ (mem_lookup_iff.1 hx)
    by_cases hsame : s.hub.ownership.get sid = s.owners.lookup sid
    · have hold : s.trackedNode sid = some node := by
        rw [trackedNode, hsame]
        exact howner
      exact .inl (mem_settled_dropOldOwners.2 ⟨hs.complete sid node x hx hold howner hremote,
        fun h => h.2.2.2 howner⟩)
    · have hknows : s.knowsOwner sid = true := by simpa [hsame] using hcase
      obtain ⟨addr, epoch, ht⟩ := subscribe_mem_notify (x := x) hknows howner hremote
      refine .inr ⟨addr, epoch, mem_resubscribeActivePlayers.2 ⟨sid, ?_, x, hx, ht⟩⟩
      exact mem_map.2 ⟨_, mem_changed_iff.2 ⟨rfl, hsame⟩, rfl⟩

/-! ### Standby replicas -/

theorem reconcileMediaReplicas_spec (hreplicas : cfg.mediaReplicas ≠ 0) :
    ∃ standbySubs tasks, s.reconcileMediaReplicas = { s with standbySubs }.spawn tasks ∧
      (∀ key node, standbySubs.lookup key = some node ↔
        s.desiredStandbys.lookup key = some node ∧
          (s.standbySubs.lookup key = some node ∨ (s.standbyAddress node).isSome)) ∧
      ∀ t, t ∈ tasks ↔
        ∃ key, t ∈ s.standbyTasks key (s.standbySubs.lookup key) (s.desiredStandbys.lookup key) := by
  rw [reconcileMediaReplicas, if_neg hreplicas]
  have hkeys : ∀ key,
      key ∈ s.desiredStandbys.keys ++
        (s.standbySubs.keys.filter fun key => (s.desiredStandbys.lookup key).isNone) ↔
      ¬ (s.desiredStandbys.lookup key = none ∧ s.standbySubs.lookup key = none) := by
    intro key
    have hlook : ∀ m : AList fun _ : StreamKey => UInt64, key ∈ m.keys ↔ m.lookup key ≠ none :=
      fun m => mem_keys.symm.trans (lookup_eq_none.not_left.symm)
    rw [mem_append, mem_filter, hlook, hlook, isNone_iff_eq_none]
    tauto
  refine ⟨_, _, rfl, fun key node => ?_, fun t => ?_⟩
  · rw [lookup_foldl_erase]
    refine and_congr_right fun hdesired => ?_
    have hkey := (hkeys key).2 fun hnone => by
      rw [hdesired] at hnone
      cases hnone.1
    rw [not_and, forall_prop_of_true hkey, lacksAddress, hdesired]
    cases haddr : s.standbyAddress node with
    | none => simpa [haddr] using eq_comm
    | some addr => simp [haddr]
  · rw [mem_flatMap]
    refine ⟨fun ⟨key, _, ht⟩ => ⟨key, ht⟩, fun ⟨key, ht⟩ => ⟨key, (hkeys key).2 ?_, ht⟩⟩
    rintro ⟨hdesired, hsubs⟩
    exact (mem_standbyTasks.1 ht).1 (hsubs.trans hdesired.symm)

/-- A tick drops the standby where it was recorded and is not wanted, and adds it where it is
recorded from now on and was not. -/
theorem standbyTask_cases {standbySubs : AList fun _ : StreamKey => UInt64}
    (hsubs : ∀ key node, standbySubs.lookup key = some node ↔
      s.desiredStandbys.lookup key = some node ∧
        (s.standbySubs.lookup key = some node ∨ (s.standbyAddress node).isSome)) {key' : StreamKey}
    (ht : t ∈ s.standbyTasks key' (s.standbySubs.lookup key') (s.desiredStandbys.lookup key'))
    (htarget : t.change.target = (node, key)) :
    (t.change.adds = none ∧ t.change.drops = (· == standbySubOwner) ∧
      s.standbySubs.lookup key = some node ∧ s.desiredStandbys.lookup key ≠ some node) ∨
    (t.change.adds = some standbySubOwner ∧ (∀ x, t.change.drops x = false) ∧
      standbySubs.lookup key = some node ∧ s.standbySubs.lookup key ≠ some node) := by
  obtain ⟨hne, ⟨old, hold, rfl⟩ | ⟨want, addr, hwant, haddr, rfl⟩⟩ := mem_standbyTasks.1 ht
  · cases htarget
    exact .inl ⟨rfl, rfl, hold, fun h => hne (hold.trans h.symm)⟩
  · cases htarget
    exact .inr ⟨rfl, fun _ => rfl, (hsubs _ _).2 ⟨hwant, .inr (haddr ▸ rfl)⟩,
      fun h => hne (h.trans hwant.symm)⟩

theorem mem_settled_reconcile (hx : x ≠ standbySubOwner) :
    x ∈ s.reconcileMediaReplicas.settled node key ↔ x ∈ s.settled node key := by
  by_cases hreplicas : cfg.mediaReplicas = 0
  · rw [reconcileMediaReplicas, if_pos hreplicas]
  obtain ⟨standbySubs, tasks, hs', hsubs, htasks⟩ := reconcileMediaReplicas_spec (s := s) hreplicas
  have hcases : ∀ t ∈ tasks, t.change.target = (node, key) →
      t.change.adds ≠ some x ∧ t.change.drops x = false := by
    intro t ht htarget
    obtain ⟨key', ht⟩ := (htasks t).1 ht
    grind [standbyTask_cases hsubs ht htarget]
  rw [hs', mem_settled_spawn_of_kept fun t ht htarget => (hcases t ht htarget).2]
  exact or_iff_left fun ⟨t, ht, htarget, hadds⟩ => (hcases t ht htarget).1 hadds

theorem Inv.replicas (hs : Inv s) : Inv s.reconcileMediaReplicas := by
  by_cases hreplicas : cfg.mediaReplicas = 0
  · rw [reconcileMediaReplicas, if_pos hreplicas]
    exact hs
  have hplayer := fun node key x => @mem_settled_reconcile cfg s node key x
  obtain ⟨standbySubs, tasks, hs', hsubs, htasks⟩ := reconcileMediaReplicas_spec (s := s) hreplicas
  rw [hs'] at hplayer ⊢
  refine ⟨⟨hs.sessions, fun node key x hx hmem => ?_, fun node key hmem => ?_,
    fun node key hnew howner => ?_⟩, fun sid node x hx htracked howner hremote => ?_⟩
  · exact hs.player node key x hx ((hplayer node key x hx).1 hmem)
  · -- Without a task that adds the standby, it was there before and none drops it.
    by_cases hadded : ∃ t ∈ tasks, t.change.target = (node, key) ∧ t.change.adds = some standbySubOwner
    · obtain ⟨t, ht, htarget, hadds⟩ := hadded
      obtain ⟨key', ht⟩ := (htasks t).1 ht
      rcases standbyTask_cases hsubs ht htarget with ⟨hnone, -⟩ | ⟨-, -, hnew, -⟩
      · rw [hnone] at hadds
        cases hadds
      · exact hnew
    · push Not at hadded
      obtain ⟨hmem, hkept⟩ := (mem_settled_spawn_of_unadded hadded).1 hmem
      have hold := hs.recorded node key hmem
      refine (hsubs key node).2 ⟨?_, .inl hold⟩
      by_contra hdesired
      have ht : PlayTask.unsubscribe standbySubOwner node key ∈ tasks :=
        (htasks _).2 ⟨key, mem_standbyTasks.2
          ⟨fun h => hdesired (h.symm.trans hold), .inl ⟨node, hold, rfl⟩⟩⟩
      exact absurd (hkept _ ht rfl) (by simp [PlayTask.change])
  · obtain ⟨hdesired, hcase⟩ := (hsubs key node).1 hnew
    refine (mem_settled_spawn_of_kept fun t ht htarget => ?_).2 ?_
    · obtain ⟨key', ht⟩ := (htasks t).1 ht
      rcases standbyTask_cases hsubs ht htarget with ⟨-, -, -, hne⟩ | ⟨-, hdrops, -⟩
      · exact absurd hdesired hne
      · exact hdrops _
    · by_cases hold : s.standbySubs.lookup key = some node
      · exact .inl (hs.placed node key hold howner)
      · obtain ⟨addr, haddr⟩ := isSome_iff_exists.1 (hcase.resolve_left hold)
        exact .inr ⟨_, (htasks _).2 ⟨key, mem_standbyTasks.2
          ⟨fun h => hold (h.trans hdesired), .inr ⟨node, addr, hdesired, haddr, rfl⟩⟩⟩, rfl, rfl⟩
  · exact (hplayer node _ x (hs.sessions x sid hx)).2
      (hs.complete sid node x hx htracked howner hremote)

/-! ### Runs -/

theorem step_inv (hs : Inv s) (hok : s.orderly op) (hstep : s.step op = some s') :
    Inv s' := by
  cases op with
  | learn | health =>
    cases hstep
    exact hs.of_same rfl (fun _ => rfl) rfl rfl fun _ _ => rfl
  | owner => exact hs.owner hok hstep
  | start => exact hs.start hok hstep
  | stop => exact hs.stop hok hstep
  | sync =>
    cases hstep
    exact hs.sync hok
  | resubscribe sids =>
    cases hstep
    exact hs.resubscribe sids
  | replicas =>
    cases hstep
    exact hs.replicas
  | run i now =>
    obtain ⟨t, ht, -⟩ := map_eq_some_iff.1 hstep
    have hok : s.inOrder i t = true ∧ s.keepsRef now t = true := by simpa [orderly, ht] using hok
    obtain ⟨hub, rfl, hown, hsettled⟩ := run_spec ht hok.1 hok.2 hstep
    exact hs.of_same rfl (fun _ => rfl) hown rfl hsettled
  | hub op =>
    rw [step] at hstep
    split_ifs at hstep with hop
    obtain ⟨hub, hhub, rfl⟩ := map_eq_some_iff.1 hstep
    obtain ⟨hrefs, hown⟩ := Prod.mk.inj (MediaHub.view_step hop hhub)
    refine hs.of_same rfl (fun _ => rfl) hown rfl fun node key => ?_
    rw [settled, settled, hrefs]

theorem runTask_frame (s : PlayState cfg) (now : Nat) (t : PlayTask) :
    (s.runTask now t).owners = s.owners ∧ (s.runTask now t).hub.ownership = s.hub.ownership ∧
      ∀ key node, (s.runTask now t).standbySubs.lookup key = some node →
        s.standbySubs.lookup key = some node := by
  cases t with
  | subscribe => exact ⟨rfl, s.hub.subscribeRemote_ownership .., fun _ _ => id⟩
  | standby addr peer key epoch =>
    have hown := s.hub.subscribeRemote_ownership peer key addr epoch standbySubOwner now
    rw [runTask]
    grind
  | unsubscribe session peer key =>
    exact ⟨rfl, congrArg snd (s.hub.unsubscribeRemote_refs peer key session now),
      fun _ _ => id⟩
  | unsubscribeAll peer key =>
    exact ⟨rfl, congrArg snd (s.hub.unsubscribeRemoteAll_refs peer key now), fun _ _ => id⟩

/-- Owners and tracker change only in a change and a sync, and only a tick records a standby. -/
theorem step_frame (hstep : s.step op = some s') :
    (op.isChange = false → s'.owners = s.owners ∧
      (op ≠ .sync → s'.hub.ownership = s.hub.ownership)) ∧
    ((op = .replicas → cfg.mediaReplicas = 0) → ∀ key node,
      s'.standbySubs.lookup key = some node → s.standbySubs.lookup key = some node) := by
  cases op with
  | learn | health | resubscribe =>
    cases hstep
    exact ⟨fun _ => ⟨rfl, fun _ => rfl⟩, fun _ _ _ => id⟩
  | owner sid owner => cases owner <;> cases hstep <;> exact ⟨nofun, fun _ _ _ => id⟩
  | start =>
    rw [step] at hstep
    split_ifs at hstep
    cases hstep
    exact ⟨nofun, fun _ _ _ => id⟩
  | stop =>
    obtain ⟨_, -, rfl⟩ := map_eq_some_iff.1 hstep
    exact ⟨nofun, fun _ _ _ => id⟩
  | sync =>
    cases hstep
    exact ⟨fun _ => ⟨rfl, fun h => absurd rfl h⟩, fun _ _ _ => id⟩
  | replicas =>
    cases hstep
    rw [reconcileMediaReplicas]
    split_ifs with h
    · exact ⟨fun _ => ⟨rfl, fun _ => rfl⟩, fun _ _ _ => id⟩
    · exact ⟨fun _ => ⟨rfl, fun _ => rfl⟩, fun hop => absurd (hop rfl) h⟩
  | run i now =>
    obtain ⟨t, -, rfl⟩ := map_eq_some_iff.1 hstep
    obtain ⟨howners, hown, hsubs⟩ := runTask_frame { s with tasks := s.tasks.eraseIdx i } now t
    exact ⟨fun _ => ⟨howners, fun _ => hown⟩, fun _ => hsubs⟩
  | hub op =>
    rw [step] at hstep
    split_ifs at hstep with hinternal
    obtain ⟨hub, hhub, rfl⟩ := map_eq_some_iff.1 hstep
    exact ⟨fun _ => ⟨rfl, fun _ => congrArg snd (MediaHub.view_step hinternal hhub)⟩,
      fun _ _ _ => id⟩

section Tail

variable {tail : List PlayOp} (hquiet : ∀ op ∈ tail, op.isChange = false)
  (htail : replay step s tail = some s')
include hquiet htail

theorem tracked_of_sync (hsync : .sync ∈ tail) (sid : String) :
    s'.trackedNode sid = s'.ownerNode sid := by
  have hset : ∀ s s' : PlayState cfg, s.step .sync = some s' →
      ∀ sid, s'.trackedNode sid = s'.ownerNode sid := by
    intro s s' hstep sid
    cases hstep
    exact congrArg (Option.map fst) (s.syncOwnershipFromDb_get sid)
  refine replay_established (P := fun s => ∀ sid, s.trackedNode sid = s.ownerNode sid) hsync hset
    (fun s op s' hop hs hstep sid => ?_) htail sid
  obtain ⟨howners, htracker⟩ := (step_frame hstep).1 (hquiet op hop)
  by_cases hop : op = .sync
  · exact hset s s' (hop ▸ hstep) sid
  · rw [trackedNode, ownerNode, howners, htracker hop]
    exact hs sid

theorem recorded_of_replicas (hreplicas : cfg.mediaReplicas ≠ 0) (htick : .replicas ∈ tail)
    {key : StreamKey} {node : UInt64} (hlook : s'.standbySubs.lookup key = some node) :
    s'.ownerNode key.2 = some node := by
  have hset : ∀ s s' : PlayState cfg, s.step .replicas = some s' →
      ∀ key node, s'.standbySubs.lookup key = some node → s'.ownerNode key.2 = some node := by
    intro s s' hstep key node hlook
    cases hstep
    obtain ⟨standbySubs, tasks, heq, hsubs, -⟩ := reconcileMediaReplicas_spec (s := s) hreplicas
    rw [heq] at hlook ⊢
    exact desiredStandbys_owner ((hsubs key node).1 hlook).1
  refine replay_established
    (P := fun s => ∀ key node, s.standbySubs.lookup key = some node → s.ownerNode key.2 = some node)
    htick hset (fun s op s' hop hs hstep key node hlook => ?_) htail key node hlook
  by_cases htick : op = .replicas
  · exact hset s s' (htick ▸ hstep) key node hlook
  · rw [ownerNode, ((step_frame hstep).1 (hquiet op hop)).1]
    exact hs key node ((step_frame hstep).2 (fun h => absurd h htick) _ _ hlook)

end Tail

theorem not_recorded (hreplicas : cfg.mediaReplicas = 0) {ops : List PlayOp}
    (hrun : replay step .new ops = some s) (key : StreamKey) (node : UInt64) :
    s.standbySubs.lookup key ≠ some node := by
  refine replay_inv (P := fun s => ∀ key node, s.standbySubs.lookup key ≠ some node)
    (fun s op s' _ hs hstep key node hlook => ?_) (fun key node hlook => ?_) hrun key node
  · exact hs key node ((step_frame hstep).2 (fun _ => hreplicas) _ _ hlook)
  · simp [new] at hlook

end PlayState

open PlayState

/-- **Subscriptions converge.** Let the steps be orderly, and let there be a sync and a replica tick
after the last change of a player or an owner. Once all tasks have run, the references for a stream
at a node are its active players if the node is its remote owner, none otherwise, and the standby
where `standby_subs` records the node. -/
theorem subscriptions_converge (cfg : PlayConfig) (history tail : List PlayOp) (s : PlayState cfg)
    (hrun : replay PlayState.step .new (history ++ tail) = some s)
    (horderly : along PlayState.step orderly (history ++ tail) (.new : PlayState cfg) = true)
    (hquiet : ∀ op ∈ tail, op.isChange = false) (hsync : .sync ∈ tail) (htick : .replicas ∈ tail)
    (hdone : s.tasks = []) (node : UInt64) (key : StreamKey) :
    s.hub.outbound.refs node key =
      (if key = cfg.key key.2 ∧ s.ownerNode key.2 = some node ∧ node ≠ cfg.nodeId then
        (s.activePlayers key.2).toFinset else ∅) ∪
      (if s.standbySubs.lookup key = some node then {standbySubOwner} else ∅) := by
  have hinv : PlayState.Inv s :=
    replay_inv_along (fun _ _ _ => PlayState.step_inv) PlayState.inv_new horderly hrun
  obtain ⟨s₀, -, htail⟩ := replay_append_eq_some.1 hrun
  have hsettled : s.hub.outbound.refs node key = s.settled node key := by
    rw [settled, hdone]
    rfl
  have htracked := tracked_of_sync hquiet htail hsync
  have hstandby : standbySubOwner ∈ s.settled node key ↔ s.standbySubs.lookup key = some node := by
    refine ⟨hinv.recorded node key, fun hlook => hinv.placed node key hlook ?_⟩
    by_cases hreplicas : cfg.mediaReplicas = 0
    · exact absurd hlook (not_recorded hreplicas hrun key node)
    · exact recorded_of_replicas hquiet htail hreplicas htick hlook
  have hplayer : ∀ x, x ≠ standbySubOwner → (x ∈ s.settled node key ↔
      (key = cfg.key key.2 ∧ s.ownerNode key.2 = some node ∧ node ≠ cfg.nodeId) ∧
        s.players.lookup x = some key.2) := by
    refine fun x hx => ⟨fun hmem => ?_, fun ⟨⟨hkey, howner, hremote⟩, hlook⟩ => ?_⟩
    · obtain ⟨hlook, hkey, hremote, hnode⟩ := hinv.player node key x hx hmem
      rw [htracked, or_self] at hnode
      exact ⟨⟨hkey, hnode, hremote⟩, hlook⟩
    · rw [hkey]
      exact hinv.complete key.2 node x hlook ((htracked key.2).trans howner) howner hremote
  have hif : ∀ (p : Prop) [Decidable p] (t : Finset String) (x : String),
      x ∈ (if p then t else ∅) ↔ p ∧ x ∈ t := by
    intro p _ t x
    split_ifs with hp <;> simp [hp]
  rw [hsettled]
  ext x
  rw [Finset.mem_union, hif, hif, mem_toFinset, mem_activePlayers, Finset.mem_singleton]
  by_cases hx : x = standbySubOwner
  · have hnot : s.players.lookup x ≠ some key.2 := fun h => hinv.sessions x key.2 h hx
    subst hx
    rw [hstandby]
    tauto
  · rw [hplayer x hx]
    tauto

/-- Node 1, a replica of the camera's stream. -/
def smallCluster : PlayConfig := ⟨1, 1, [("cam", "live")], ⟨8, 4096, 3000, 10000⟩⟩

/-- Node 2 owns the stream, and node 1 has seen it. -/
def cameraAtNode2 : List PlayOp :=
  [.learn 1 "10.0.0.1:1936", .learn 2 "10.0.0.2:1936", .owner "cam" (some (2, 1)), .sync]

def playersAndStandby : List PlayOp :=
  cameraAtNode2 ++
    [PlayOp.start "p1" "cam", .start "p2" "cam", .replicas, .run 2 0, .run 1 0, .stop "p2", .run 1 0]

theorem subscriptions_converge_players :
    ∃ s : PlayState smallCluster,
      replay PlayState.step .new (playersAndStandby ++ [.sync, .replicas, .run 0 0]) = some s ∧
        s.tasks = [] ∧ s.activePlayers "cam" = ["p1"] ∧
        s.hub.outbound.refs 2 ("live", "cam") = {"p1", standbySubOwner} := by
  refine ⟨_, rfl, rfl, rfl, ?_⟩
  refine (subscriptions_converge smallCluster playersAndStandby [.sync, .replicas, .run 0 0] _ rfl
    (by decide) (by decide) (by simp) (by simp) rfl 2 ("live", "cam")).trans ?_
  decide

/-- A player starts and stops at once, and the task of its stop runs first. Nobody plays, all is
done, and the reference stays. -/
theorem stop_overtakes_start :
    ∃ s : PlayState smallCluster,
      replay PlayState.step .new (cameraAtNode2 ++
        [.start "p1" "cam", .stop "p1", .run 1 0, .run 0 0, .sync, .replicas, .run 0 0]) = some s ∧
        s.tasks = [] ∧ s.activePlayers "cam" = [] ∧
        s.hub.outbound.refs 2 ("live", "cam") = {"p1", standbySubOwner} :=
  ⟨_, rfl, rfl, rfl, by decide⟩

end RtmpServer
