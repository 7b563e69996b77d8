import RtmpServer.Lib.Toggle
import RtmpServer.Media.MediaHub
import RtmpServer.Media.QueueHistory

/-!
# At most one wire subscription per stream

The owner of a stream counts the `Subscribe`s and `Unsubscribe`s of a connection. On the
subscriber's side the `wired` flag of a reference is to say that there is a `Subscribe` on the
current connection, so that a second one is not sent. A `Subscribe` that is queued when no
connection is up waits for the next one, and the replay sends it once more
(`replay_doubles_subscribe`).
-/

namespace RtmpServer

open Option List Lib.Refcount Lib.Replay Lib.Toggle Nat

/-! ### What is on its way -/

/-- What a message says about a stream: `Subscribe` or `Unsubscribe`. -/
def MediaMessage.signal (key : StreamKey) : MediaMessage → Option Bool
  | .subscribe app stream _ _ => if (app, stream) = key then some true else none
  | .unsubscribe app stream => if (app, stream) = key then some false else none
  | _ => none

def LiveQueue.signals (q : LiveQueue) (key : StreamKey) : List Bool :=
  q.entries.filterMap fun e => e.msg.signal key

/-- A `Subscribe` the session has read and not yet decided on. -/
def SessionPhase.pending (key : StreamKey) : SessionPhase → List Bool
  | .judging k | .registering k _ _ | .failed k | .keeping k => if k = key then [true] else []
  | .reading | .leaving => []

def Link.signals (l : Link) (key : StreamKey) : List Bool :=
  l.session.phase.pending key ++ l.wire.filterMap fun msg => msg.signal key

def PeerPhase.signals (key : StreamKey) : PeerPhase → List Bool
  | .running link => link.signals key
  | .waiting | .dialing => []

def PeerPhase.tally (key : StreamKey) : PeerPhase → Nat
  | .running link => count link.session.connSubs key
  | .waiting | .dialing => 0

/-- The owner's tally of the current connection of a peer, and what is on its way to it: on the
connection or queued. -/
def MediaHub.channel {cfg : HubConfig} (h : MediaHub cfg) (peer : UInt64) (key : StreamKey) :
    Option (Nat × List Bool) :=
  (h.peers.lookup peer).map fun p =>
    (p.phase.tally key, p.phase.signals key ++ p.queue.queue.signals key)

/-! ### The queue keeps the signals -/

theorem filterMap_cons_toList {α β : Type*} (f : α → Option β) (a : α) (l : List α) :
    (a :: l).filterMap f = (f a).toList ++ l.filterMap f := by
  cases h : f a <;> simp [h]

theorem MediaMessage.signal_of_media {msg : MediaMessage} (h : msg.kind.isMedia)
    (key : StreamKey) : msg.signal key = none := by
  cases msg <;> first | rfl | cases h

namespace LiveQueue

variable {q q' : LiveQueue} (key : StreamKey)

theorem signals_eq_control (q : LiveQueue) :
    q.signals key = (q.entries.filter (!·.isMedia)).filterMap fun e => e.msg.signal key := by
  rw [signals, filterMap_filter]
  refine filterMap_congr fun e _ => ?_
  cases hmedia : e.isMedia with
  | true => exact MediaMessage.signal_of_media hmedia key
  | false => rfl

theorem Maintained.signals (hm : Maintained q q') : q'.signals key = q.signals key := by
  refine hm.inv (P := fun x => x.signals key = q.signals key) (fun x y h hx => ?_) rfl
  obtain ⟨_, -, -, -, hcontrol, -⟩ := h.change.moved
  rw [signals_eq_control, hcontrol, ← signals_eq_control, hx]

theorem Resumed.signals {e : QueueEntry} (hr : Resumed e q q') :
    q'.signals key = q.signals key := by
  rw [LiveQueue.signals, hr.frame.1, LiveQueue.signals]

theorem Pushed.signals {cfg : LiveQueueConfig} {e : QueueEntry} {r : PushResult}
    (hp : Pushed cfg q e r q') :
    q'.signals key = q.signals key ++ if r = .queued then (e.msg.signal key).toList else [] := by
  cases hp with
  | closed => exact (append_nil _).symm
  | oversized => exact (append_nil _).symm
  | awaiting k hm =>
    rw [if_neg (by decide), append_nil, ← hm.signals key]
    rfl
  | full hbefore hresumed hafter =>
    rw [← hbefore.signals key, ← hresumed.signals key, ← hafter.signals key]
    refine Eq.trans ?_ (append_nil _).symm
    split <;> rfl
  | @queued q₁ q₂ q₃ q₄ hbefore hresumed hafter hagain =>
    rw [if_pos rfl, ← hbefore.signals key, ← hresumed.signals key, ← hafter.signals key,
      ← hagain.signals key, LiveQueue.signals, (q₄.enqueue_eq e).1, filterMap_append,
      filterMap_cons_toList]
    simp [LiveQueue.signals]

theorem Popped.signals {e : Option QueueEntry} (hp : Popped q e q') :
    q.signals key = (e.bind fun e => e.msg.signal key).toList ++ q'.signals key := by
  cases hp with
  | closed => rfl
  | empty hm => exact (hm.signals key).symm
  | @head q₁ e rest hm hentries =>
    rw [← hm.signals key, LiveQueue.signals, hentries, LiveQueue.signals, (q₁.deliver_eq e rest).1,
      filterMap_cons_toList]
    rfl

end LiveQueue

/-! ### The owner counts the signals -/

namespace MediaSession

variable {s s' : MediaSession} {edit : TableEdit} (key : StreamKey)

/-- What reading a message does to what the session counts and what it has to decide on. -/
inductive ReadSignal (s s' : MediaSession) (key : StreamKey) : Option Bool → Prop
  | on (hpending : s'.phase.pending key = [true]) (hcount : s'.connSubs = s.connSubs) :
    ReadSignal s s' key (some true)
  | off (hpending : s'.phase.pending key = [])
      (hcount : count s'.connSubs key = count s.connSubs key - 1) :
    ReadSignal s s' key (some false)
  | other (hpending : s'.phase.pending key = [])
      (hcount : count s'.connSubs key = count s.connSubs key) :
    ReadSignal s s' key none

theorem receive_signal (hphase : s.phase = .reading) (msg : MediaMessage) :
    ReadSignal s (s.receive msg).1 key (msg.signal key) := by
  have hpending : s.phase.pending key = [] := by rw [hphase]; rfl
  cases msg with
  | subscribe app stream epoch generation =>
    rw [MediaMessage.signal]
    split_ifs with hkey
    · exact .on (if_pos hkey) rfl
    · exact .other (if_neg hkey) rfl
  | unsubscribe app stream =>
    have hcount : count (s.receive (.unsubscribe app stream)).1.connSubs key =
        count s.connSubs key - if (app, stream) = key then 1 else 0 := by
      grind [receive]
    have hsame : (s.receive (.unsubscribe app stream)).1.phase = s.phase := by grind [receive]
    rw [MediaMessage.signal]
    split_ifs with hkey
    · exact .off (hsame ▸ hpending) (by simpa [hkey] using hcount)
    · exact .other (hsame ▸ hpending) (by simpa [hkey] using hcount)
  | _ => exact .other hpending rfl

/-- What the other sections do: they may release, and they decide on the `Subscribe` at hand. -/
inductive ServeSignal (s s' : MediaSession) (key : StreamKey) : Prop
  | same (hpending : s'.phase.pending key = s.phase.pending key)
      (hcount : count s'.connSubs key ≤ count s.connSubs key)
  | accepted (hpending : s.phase.pending key = [true]) (hdone : s'.phase.pending key = [])
      (hcount : count s'.connSubs key = count s.connSubs key + 1)
  | refused (hpending : s.phase.pending key = [true]) (hdone : s'.phase.pending key = [])
      (hcount : count s'.connSubs key = count s.connSubs key)

/-- The phases that hold a `Subscribe` of `k`. -/
theorem pending_eq {k : StreamKey} (hphase : s.phase = .judging k ∨ s.phase = .failed k ∨
    s.phase = .keeping k ∨ ∃ init n, s.phase = .registering k init n) (key : StreamKey) :
    s.phase.pending key = if k = key then [true] else [] := by
  rcases hphase with h | h | h | ⟨init, n, h⟩ <;> rw [h] <;> rfl

theorem register_signal {k : StreamKey}
    (hpending : ∀ key, s.phase.pending key = if k = key then [true] else []) :
    ServeSignal s (s.register k) key := by
  have hcount : count (s.register k).connSubs key =
      count s.connSubs key + if key = k then 1 else 0 := count_incr _ k key
  by_cases hkey : k = key
  · exact .accepted (by rw [hpending, if_pos hkey]) rfl (by rw [hcount, if_pos hkey.symm])
  · exact .same (by rw [hpending, if_neg hkey]; rfl) (by rw [hcount, if_neg (Ne.symm hkey), add_zero])

theorem refuse_signal {k : StreamKey}
    (hpending : ∀ key, s.phase.pending key = if k = key then [true] else [])
    (hdone : s'.phase.pending key = []) (hcount : s'.connSubs = s.connSubs) :
    ServeSignal s s' key := by
  by_cases hkey : k = key
  · exact .refused (by rw [hpending, if_pos hkey]) hdone (by rw [hcount])
  · exact .same (by rw [hdone, hpending, if_neg hkey]) (by rw [hcount])

theorem serve_signal {op : SessionOp} (hop : ∀ msg, op ≠ .read msg)
    (h : s.step op = some (s', edit)) : ServeSignal s s' key := by
  cases op with
  | sinkCloses =>
    cases h
    exact .same rfl (le_refl _)
  | read msg => exact absurd rfl (hop msg)
  | verdict v init =>
    rw [step] at h
    split at h <;> cases v <;> cases h
    case h_1.allow k hphase => exact .same (pending_eq (.inl hphase) key).symm (le_refl _)
    case h_1.deny k hphase => exact refuse_signal key (pending_eq (.inl hphase)) rfl rfl
    case h_1.transient k hphase => exact refuse_signal key (pending_eq (.inl hphase)) rfl rfl
  | attempt sent =>
    rw [step] at h
    split at h <;> [skip; cases h]
    rename_i k init n hphase
    have hpending := pending_eq (.inr (.inr (.inr ⟨init, n, hphase⟩)))
    split_ifs at h <;> cases h
    · exact register_signal key hpending
    · exact .same (hpending key).symm (le_refl _)
    · exact .same (hpending key).symm (le_refl _)
  | checkClosed =>
    rw [step] at h
    split at h <;> [skip; cases h]
    rename_i k hphase
    have hpending := pending_eq (.inr (.inl hphase))
    split_ifs at h <;> cases h
    · exact refuse_signal key hpending rfl rfl
    · exact .same (hpending key).symm (le_refl _)
  | keep =>
    rw [step] at h
    split at h <;> cases h
    rename_i k hphase
    exact register_signal key (pending_eq (.inr (.inr (.inl hphase))))
  | leave =>
    rw [step] at h
    split at h <;> cases h
    rename_i hphase
    exact .same (by rw [hphase]; rfl) (le_refl _)
  | release k =>
    rw [step] at h
    split at h <;> [skip; cases h]
    split_ifs at h
    cases h
    refine .same rfl ?_
    rw [count_decr]
    omega

end MediaSession

namespace Link

variable {l l' : Link} {idle : Prop} {key : StreamKey} {rest : List Bool}

/-- **Reading.** The owner counts what it reads. -/
theorem read_kept (h : l.read = some l')
    (hk : Kept idle (count l.session.connSubs key) (l.signals key ++ rest)) :
    Kept idle (count l'.session.connSubs key) (l'.signals key ++ rest) := by
  rw [read] at h
  split at h
  · cases h
  rename_i msg wire hwire
  obtain ⟨⟨session, edit⟩, hstep, h'⟩ := bind_eq_some_iff.1 h
  cases h'
  rw [MediaSession.step] at hstep
  split at hstep
  case h_2 => cases hstep
  case h_1 hphase =>
    have hsession : session = (l.session.receive msg).1 := by
      rw [some.inj hstep]
    have hread := MediaSession.receive_signal key hphase msg
    rw [← hsession] at hread
    rw [signals, hphase, hwire, filterMap_cons_toList] at hk
    show Kept idle (count session.connSubs key)
      ((session.phase.pending key ++ wire.filterMap fun msg => msg.signal key) ++ rest)
    generalize msg.signal key = signal at hread hk
    cases hread with
    | on hpending hcount =>
      rw [hpending, hcount]
      exact hk
    | off hpending hcount =>
      rw [hpending, hcount]
      exact hk.uncounted
    | other hpending hcount =>
      rw [hpending, hcount]
      exact hk

/-- **Deciding.** The owner counts, refuses or releases. -/
theorem serve_kept {op : SessionOp} {answer : Option MediaMessage}
    (h : l.serve op = some (l', answer))
    (hk : Kept idle (count l.session.connSubs key) (l.signals key ++ rest)) :
    Kept idle (count l'.session.connSubs key) (l'.signals key ++ rest) := by
  unfold serve at h
  split at h
  · cases h
  rename_i hop
  obtain ⟨⟨session, edit⟩, hstep, h'⟩ := bind_eq_some_iff.1 h
  cases h'
  show Kept idle (count session.connSubs key)
    ((session.phase.pending key ++ l.wire.filterMap fun msg => msg.signal key) ++ rest)
  rw [signals] at hk
  cases MediaSession.serve_signal key (fun msg hmsg => hop msg hmsg) hstep with
  | same hpending hcount =>
    rw [hpending]
    exact hk.less hcount
  | accepted hpending hdone hcount =>
    rw [hpending] at hk
    rw [hdone, hcount]
    exact hk.counted
  | refused hpending hdone hcount =>
    rw [hpending] at hk
    rw [hdone, hcount]
    exact hk.refused

end Link

/-! ### Channels of the hub -/

theorem PeerQueue.push_spec {cfg : LiveQueueConfig} (q : PeerQueue cfg) (msg : MediaMessage)
    (now : Nat) :
    LiveQueue.Pushed cfg q.queue ⟨0, msg, now⟩ (q.push msg now).1 (q.push msg now).2.queue := by
  obtain ⟨r, q', hpush, hpushed⟩ := LiveQueue.pushAt_spec q.ok.booked cfg ⟨0, msg, now⟩
  rw [PeerQueue.push]
  split
  · rename_i r₁ q₁ h
    rw [h] at hpush
    cases hpush
    exact hpushed
  · rename_i h
    exact absurd h (PeerQueue.pushAt_returns q.ok _)

namespace MediaHub

variable {cfg : HubConfig} {h h' : MediaHub cfg} {peer q : UInt64} {key k : StreamKey}
  {msg : MediaMessage} {now : Nat}

theorem channel_congr (hpeers : h'.peers = h.peers) (q : UInt64) (k : StreamKey) :
    h'.channel q k = h.channel q k := by
  rw [channel, hpeers, channel]

theorem channel_insert (p : MediaPeer cfg.queue) (q : UInt64) (k : StreamKey) :
    channel { h with peers := h.peers.insert peer p } q k =
      if q = peer then some (p.phase.tally k, p.phase.signals k ++ p.queue.queue.signals k)
      else h.channel q k := by
  rw [channel]
  split_ifs with hq
  · rw [hq]
    show ((h.peers.insert peer p).lookup peer).map _ = _
    rw [AList.lookup_insert]
    rfl
  · show ((h.peers.insert peer p).lookup q).map _ = _
    rw [AList.lookup_insert_ne hq, channel]

theorem trySend_frame (h : MediaHub cfg) (peer : UInt64) (msg : MediaMessage) (now : Nat) :
    ((h.trySend peer msg now).2.outbound = h.outbound ∧
      (h.trySend peer msg now).2.retries = h.retries) ∧
      (h.trySend peer msg now).2.ownership = h.ownership := by
  rw [trySend]
  split <;> exact ⟨⟨rfl, rfl⟩, rfl⟩

@[simp] theorem outbound_trySend (h : MediaHub cfg) (peer : UInt64) (msg : MediaMessage) (now : Nat) :
    (h.trySend peer msg now).2.outbound = h.outbound := (h.trySend_frame peer msg now).1.1

@[simp] theorem retries_trySend (h : MediaHub cfg) (peer : UInt64) (msg : MediaMessage) (now : Nat) :
    (h.trySend peer msg now).2.retries = h.retries := (h.trySend_frame peer msg now).1.2

theorem channel_trySend (h : MediaHub cfg) (peer : UInt64) (msg : MediaMessage) (now : Nat)
    (q : UInt64) (k : StreamKey) :
    (h.trySend peer msg now).2.channel q k = (h.channel q k).map fun c =>
      (c.1, c.2 ++ if q = peer ∧ (h.trySend peer msg now).1 = true then (msg.signal k).toList
        else []) := by
  rw [trySend]
  cases hp : h.peers.lookup peer with
  | none => simp
  | some p =>
    dsimp only
    rw [channel_insert]
    by_cases hq : q = peer
    · rw [if_pos hq, hq, channel, hp]
      show some (p.phase.tally k, p.phase.signals k ++ (p.queue.push msg now).2.queue.signals k) = _
      rw [(p.queue.push_spec msg now).signals k]
      simp [MediaPeer.trySend]
    · simp [hq]

end MediaHub

/-! ### Retries under way -/

/-- The retry has found the reference and has not come to its `set_wired` yet. -/
def RetryPhase.busy : RetryPhase → Bool
  | .asleep | .checkRef | .done => false
  | _ => true

/-- It has also found that the key is not wired, and has not sent yet. -/
def RetryPhase.trusts : RetryPhase → Bool
  | .asleep | .checkRef | .checkWired | .markWired | .done => false
  | _ => true

theorem RetryPhase.busy_of_trusts {phase : RetryPhase} (h : phase.trusts) :
    phase.busy = true := by
  cases phase with
  | asleep | checkRef | checkWired | markWired | done => cases h
  | readEpoch | findPeer | build | send => rfl

def RetryTask.busyOn (t : RetryTask) (peer : UInt64) (key : StreamKey) : Bool :=
  t.phase.busy && t.peer == peer && t.key == key

theorem RetryTask.busyOn_iff {t : RetryTask} {peer : UInt64} {key : StreamKey} :
    t.busyOn peer key ↔ t.phase.busy ∧ t.peer = peer ∧ t.key = key := by
  simp [busyOn, and_assoc]

/-- What the retries under way rely on: the reference is there, the key is as they found it, and no
other retry is under way for it. -/
structure RetriesOk (t : OutboundSubscriptions) (retries : List RetryTask) : Prop where
  held : ∀ r ∈ retries, r.phase.busy = true → t.has r.peer r.key = true
  unwired : ∀ r ∈ retries, r.phase.trusts = true → t.isWired r.peer r.key = false
  alone : ∀ peer key, retries.countP (·.busyOn peer key) ≤ 1

namespace RetriesOk

variable {t t' : OutboundSubscriptions} {retries : List RetryTask}

theorem nil (t : OutboundSubscriptions) : RetriesOk t [] := ⟨nofun, nofun, by simp⟩

variable (h : RetriesOk t retries)
include h

theorem eq_of_busyOn {r s : RetryTask} (hr : r ∈ retries)
    (hs : s ∈ retries) {peer : UInt64} {key : StreamKey} (hbr : r.busyOn peer key)
    (hbs : s.busyOn peer key) : r = s := by
  have hone := h.alone peer key
  rw [countP_eq_length_filter] at hone
  have hmem : ∀ x ∈ retries, x.busyOn peer key = true → x ∈ retries.filter (·.busyOn peer key) :=
    fun x hx hb => mem_filter.2 ⟨hx, hb⟩
  have hr := hmem r hr hbr
  have hs := hmem s hs hbs
  generalize retries.filter (·.busyOn peer key) = l at hone hr hs
  rcases l with _ | ⟨a, _ | ⟨b, l⟩⟩ <;> grind

theorem outbound (hhas : ∀ r ∈ retries, r.phase.busy → t.has r.peer r.key →
      t'.has r.peer r.key)
    (hwired : ∀ r ∈ retries, r.phase.busy → t.isWired r.peer r.key = false →
      t'.isWired r.peer r.key = false) : RetriesOk t' retries where
  held r hr hbusy := hhas r hr hbusy (h.held r hr hbusy)
  unwired r hr htrusts :=
    hwired r hr (RetryPhase.busy_of_trusts htrusts) (h.unwired r hr htrusts)
  alone := h.alone

theorem schedule {r : RetryTask} (hr : r.phase = .asleep) :
    RetriesOk t (retries ++ [r]) := by
  refine ⟨fun x hx hbusy => ?_, fun x hx htrusts => ?_, fun peer key => ?_⟩
  · have := h.held x
    grind [RetryPhase.busy]
  · have := h.unwired x
    grind [RetryPhase.trusts]
  · simpa [countP_append, RetryTask.busyOn, hr, RetryPhase.busy] using h.alone peer key

theorem goOn {i : Nat} {r : RetryTask} (hr : retries[i]? = some r)
    {phase : RetryPhase} (hheld : phase.busy → t.has r.peer r.key)
    (hunwired : phase.trusts → t.isWired r.peer r.key = false)
    (halone : phase.busy → r.phase.busy ∨
      ∀ s ∈ retries, s.busyOn r.peer r.key = false) :
    RetriesOk t (retries.set i { r with phase }) := by
  obtain ⟨hi, rfl⟩ := List.getElem?_eq_some_iff.1 hr
  refine ⟨fun s hs hbusy => ?_, fun s hs htrusts => ?_, fun peer key => ?_⟩
  · rcases List.mem_or_eq_of_mem_set hs with hs | rfl
    · exact h.held s hs hbusy
    · exact hheld hbusy
  · rcases mem_or_eq_of_mem_set hs with hs | rfl
    · exact h.unwired s hs htrusts
    · exact hunwired htrusts
  · have hone := h.alone peer key
    rw [countP_set hi]
    by_cases hon : RetryTask.busyOn { retries[i] with phase } peer key = true
    · obtain ⟨hbusy, rfl, rfl⟩ := RetryTask.busyOn_iff.1 hon
      rcases halone hbusy with hold | hfree
      · rw [if_pos (RetryTask.busyOn_iff.2 ⟨hold, rfl, rfl⟩)]
        grind
      · grind [countP_eq_zero.2 fun r hr => by simpa using hfree r hr]
    · grind

theorem free_of_done {i : Nat} {r : RetryTask} (hr : retries[i]? = some r) (hbusy : r.phase.busy) :
    ∀ s ∈ retries.set i { r with phase := .done }, s.busyOn r.peer r.key = false := by
  obtain ⟨hi, rfl⟩ := List.getElem?_eq_some_iff.1 hr
  have hone := h.alone retries[i].peer retries[i].key
  have hzero : (retries.set i { retries[i] with phase := .done }).countP
      (·.busyOn retries[i].peer retries[i].key) = 0 := by
    rw [countP_set hi, if_pos (RetryTask.busyOn_iff.2 ⟨hbusy, rfl, rfl⟩),
      if_neg (by simp [RetryTask.busyOn, RetryPhase.busy])]
    omega
  simpa using countP_eq_zero.1 hzero

end RetriesOk

/-! ### The invariant -/

namespace MediaHub

variable {cfg : HubConfig} {h h' : MediaHub cfg} {peer : UInt64} {key : StreamKey}
  {msg : MediaMessage} {now : Nat}

/-- Nothing says that a `Subscribe` of the key is on the connection. -/
structure Idle (h : MediaHub cfg) (peer : UInt64) (key : StreamKey) : Prop where
  unwired : h.outbound.isWired peer key = false
  unmarked : ∀ r ∈ h.retries, r.peer = peer → r.key = key → r.phase ≠ .markWired

/-- The channels keep the discipline of their senders, and the retries can rely on what they saw. -/
structure Inv (h : MediaHub cfg) : Prop where
  kept : ∀ peer key c, h.channel peer key = some c → Kept (h.Idle peer key) c.1 c.2
  retries : RetriesOk h.outbound h.retries

theorem new_inv : (new : MediaHub cfg).Inv := ⟨nofun, RetriesOk.nil _⟩

def Free (h : MediaHub cfg) (peer : UInt64) (key : StreamKey) : Prop :=
  ∀ r ∈ h.retries, r.busyOn peer key = false

theorem Free.ne (hfree : h.Free peer key) {r : RetryTask} (hr : r ∈ h.retries)
    (hbusy : r.phase.busy) : (r.peer, r.key) ≠ (peer, key) := by
  intro hk
  cases hk
  simpa [RetryTask.busyOn, hbusy] using hfree r hr

theorem Free.unmarked (hfree : h.Free peer key) :
    ∀ r ∈ h.retries, r.peer = peer → r.key = key → r.phase ≠ .markWired := by
  intro r hr hpeer hkey hphase
  exact hfree.ne hr (by rw [hphase]; rfl) (Prod.ext hpeer hkey)

/-- The owner has counted no `Subscribe` of the key, and none is on its way. -/
def quiet (h : MediaHub cfg) (peer : UInt64) (key : StreamKey) : Bool :=
  (h.channel peer key).all fun c => c.1 == 0 && !c.2.contains true

theorem quiet_iff : h.quiet peer key ↔
    ∀ c, h.channel peer key = some c → c.1 = 0 ∧ true ∉ c.2 := by
  rw [quiet]
  cases h.channel peer key <;> simp

namespace Inv

variable (hinv : h.Inv)
include hinv

/-- **Flags.** What stands in the table and in the retries may change as long as a key is taken for
idle only if it was idle before, or is quiet. -/
theorem flags (hchannel : ∀ q k, h'.channel q k = h.channel q k)
    (hidle : ∀ q k, (h'.Idle q k → h.Idle q k) ∨ h.quiet q k)
    (hretries : RetriesOk h'.outbound h'.retries) : h'.Inv := by
  refine ⟨fun q k c hc => ?_, hretries⟩
  rw [hchannel] at hc
  have hkept := hinv.kept q k c hc
  rcases hidle q k with himp | hquiet
  · exact hkept.mono himp
  · obtain ⟨hzero, hnone⟩ := quiet_iff.1 hquiet c hc
    rw [hzero] at hkept ⊢
    exact hkept.of_quiet hnone

theorem congr (houtbound : h'.outbound = h.outbound)
    (hretries : h'.retries = h.retries) (hchannel : ∀ q k, h'.channel q k = h.channel q k) :
    h'.Inv := by
  refine hinv.flags hchannel (fun q k => .inl fun hidle => ?_) ?_
  · exact ⟨houtbound ▸ hidle.unwired, hretries ▸ hidle.unmarked⟩
  · rw [houtbound, hretries]
    exact hinv.retries

theorem table {t : OutboundSubscriptions} (hwired : ∀ q k, t.isWired q k = h.outbound.isWired q k)
    (hhas : ∀ r ∈ h.retries, r.phase.busy → h.outbound.has r.peer r.key →
      t.has r.peer r.key) :
    Inv { h with outbound := t } := by
  refine hinv.flags (fun _ _ => rfl) (fun q k => .inl fun hidle => ⟨?_, hidle.unmarked⟩)
    (hinv.retries.outbound hhas fun r _ _ hr => by rw [hwired, hr])
  rw [← hwired]
  exact hidle.unwired

theorem schedule (peer : UInt64) (key : StreamKey) (generation : UInt64)
    (sendRetries : Nat) : (h.scheduleSubscribeRetry peer key generation sendRetries).Inv :=
  hinv.flags (fun _ _ => rfl) (fun _ _ => .inl fun hidle => ⟨hidle.unwired,
    fun r hr => hidle.unmarked r (mem_append_left _ hr)⟩) (hinv.retries.schedule rfl)

theorem bump (peer : UInt64) (key : StreamKey) : (h.bumpSubGen peer key).2.Inv :=
  hinv.congr rfl rfl fun _ _ => rfl

theorem trySend (h₀ : (h.trySend peer msg now).1 = false ∨ ∀ k, msg.signal k = none) :
    (h.trySend peer msg now).2.Inv := by
  refine hinv.congr (outbound_trySend ..) (retries_trySend ..) fun q k => ?_
  rw [channel_trySend]
  rcases h₀ with hsent | hsignal
  · simp [hsent]
  · simp [hsignal]

/-- **Signals.** A `Subscribe` is sent for a key that was idle and is not any more. -/
theorem signals {b : Bool} (hsignal : ∀ k, msg.signal k = if key = k then some b else none)
    (hsent : h.channel peer key ≠ none → (h.trySend peer msg now).1)
    (hchannel : ∀ q k, h'.channel q k = (h.trySend peer msg now).2.channel q k)
    (hother : ∀ q k, (q, k) ≠ (peer, key) → h'.Idle q k → h.Idle q k)
    (hon : b → h.Idle peer key ∧ ¬ h'.Idle peer key)
    (hretries : RetriesOk h'.outbound h'.retries) : h'.Inv := by
  refine ⟨fun q k c' hc' => ?_, hretries⟩
  rw [hchannel, channel_trySend] at hc'
  obtain ⟨c, hc, rfl⟩ := map_eq_some_iff.1 hc'
  have hkept := hinv.kept q k c hc
  by_cases hk : (q, k) = (peer, key)
  · cases hk
    rw [if_pos ⟨rfl, hsent (by simp [hc])⟩, hsignal, if_pos rfl]
    cases b with
    | true => exact hkept.on (hon rfl).1 (hon rfl).2
    | false => exact hkept.off
  · have hnone : msg.signal k = none ∨ q ≠ peer := by
      rw [hsignal]
      grind
    rcases hnone with hnone | hnone <;> simpa [hnone] using hkept.mono (hother q k hk)

/-- **Subscribing.** A `Subscribe` is sent for a key that is not wired. -/
theorem subscribed (hfree : h.Free peer key)
    (hwired : h.outbound.isWired peer key = false) (hhas : h.outbound.has peer key)
    {epoch generation : UInt64}
    (hsent : (h.trySend peer (.subscribe key.1 key.2 epoch generation) now).1) :
    ((h.trySend peer (.subscribe key.1 key.2 epoch generation) now).2.setWired peer key true).Inv := by
  refine hinv.signals (b := true) (fun _ => rfl) (fun _ => hsent) (fun _ _ => rfl)
    (fun q k hk hidle => ⟨?_, ?_⟩) (fun _ => ⟨⟨hwired, hfree.unmarked⟩, fun hidle => ?_⟩) ?_
  · simpa [setWired, hk] using hidle.unwired
  · simpa [setWired] using hidle.unmarked
  · simpa [setWired, hhas] using hidle.unwired
  · simp only [setWired, outbound_trySend, retries_trySend]
    refine hinv.retries.outbound (fun r _ _ hr => ?_) fun r hr hbusy hunwired => ?_
    · rw [OutboundSubscriptions.has_setWired, hr]
    · rw [OutboundSubscriptions.isWired_setWired, if_neg (hfree.ne hr hbusy), hunwired]

end Inv

/-! ### Unsubscribing -/

def takes (h : MediaHub cfg) (peer : UInt64) (msg : MediaMessage) (now : Nat) : Bool :=
  (h.peers.lookup peer).all fun p => (p.trySend msg now).1

theorem sent_of_takes (htakes : h.takes peer msg now) (hc : h.channel peer key ≠ none) :
    (h.trySend peer msg now).1 = true := by
  rw [takes] at htakes
  rw [channel] at hc
  rw [trySend]
  cases hp : h.peers.lookup peer with
  | none => simp [hp] at hc
  | some p => simpa [hp] using htakes

theorem Free.erase (hfree : h.Free peer key) (hok : RetriesOk h.outbound h.retries) :
    RetriesOk (h.outbound.erase (peer, key)) h.retries := by
  refine hok.outbound (fun r hr hbusy hhas => ?_) fun r _ _ hr => by simp [hr]
  rw [OutboundSubscriptions.has_erase, hhas, decide_eq_false (hfree.ne hr hbusy)]
  rfl

theorem Inv.unsubscribed (hinv : h.Inv) (hfree : h.Free peer key)
    (htakes : h.takes peer (.unsubscribe key.1 key.2) now) :
    (finishUnsubscribe { h with outbound := h.outbound.erase (peer, key) } peer key now).Inv := by
  -- the hub as it is when the `Unsubscribe` is sent
  obtain ⟨g, hg, houtbound, hretries, hpeers⟩ : ∃ g : MediaHub cfg,
      finishUnsubscribe { h with outbound := h.outbound.erase (peer, key) } peer key now =
        (g.trySend peer (.unsubscribe key.1 key.2) now).2 ∧
      g.outbound = h.outbound.erase (peer, key) ∧ g.retries = h.retries ∧ g.peers = h.peers :=
    ⟨_, rfl, rfl, rfl, rfl⟩
  have hchannel := channel_congr hpeers
  have hsent : (g.trySend peer (.unsubscribe key.1 key.2) now).1 =
      (h.trySend peer (.unsubscribe key.1 key.2) now).1 := by
    rw [MediaHub.trySend, MediaHub.trySend, hpeers]
    cases h.peers.lookup peer <;> rfl
  rw [hg]
  refine hinv.signals (b := false) (fun _ => rfl) (sent_of_takes htakes) (fun q k => ?_)
    (fun q k hk hidle => ⟨?_, ?_⟩) nofun ?_
  · rw [channel_trySend, channel_trySend, hchannel, hsent]
  · simpa [houtbound, hk] using hidle.unwired
  · simpa [hretries] using hidle.unmarked
  · simpa [houtbound, hretries] using hfree.erase hinv.retries

/-! ### Replaying -/

theorem Inv.cleared (hinv : h.Inv) (hquiet : ∀ k, h.outbound.has peer k → h.quiet peer k) :
    Inv { h with outbound := h.outbound.clearWired peer } := by
  refine hinv.flags (fun _ _ => rfl) (fun q k => ?_) (hinv.retries.outbound
    (fun r _ _ hr => by simpa using hr) fun r _ _ hr => by simp [hr])
  by_cases hq : q = peer
  · subst hq
    by_cases hhas : h.outbound.has q k = true
    · exact .inr (hquiet k hhas)
    · refine .inl fun hidle => ⟨Bool.eq_false_iff.2 fun hwired => hhas ?_, hidle.unmarked⟩
      exact OutboundSubscriptions.has_of_isWired hwired
  · exact .inl fun hidle => ⟨by simpa [hq] using hidle.unwired, hidle.unmarked⟩

/-- What the replay does for one stream: nothing, send and wire, or leave it to a retry. `h₁` is the
hub with a generation for the key. -/
inductive Resubscribed (h : MediaHub cfg) (peer : UInt64) (key : StreamKey) (now : Nat) :
    MediaHub cfg → Prop
  | own : Resubscribed h peer key now h
  | sent (h₁ : MediaHub cfg) (epoch generation : UInt64) (houtbound : h₁.outbound = h.outbound)
      (hretries : h₁.retries = h.retries) (hpeers : h₁.peers = h.peers)
      (hownership : h₁.ownership = h.ownership)
      (hsent : (h₁.trySend peer (.subscribe key.1 key.2 epoch generation) now).1 = true) :
    Resubscribed h peer key now
      ((h₁.trySend peer (.subscribe key.1 key.2 epoch generation) now).2.setWired peer key true)
  | refused (h₁ : MediaHub cfg) (epoch generation g : UInt64) (houtbound : h₁.outbound = h.outbound)
      (hretries : h₁.retries = h.retries) (hpeers : h₁.peers = h.peers)
      (hownership : h₁.ownership = h.ownership)
      (hsent : (h₁.trySend peer (.subscribe key.1 key.2 epoch generation) now).1 = false) :
    Resubscribed h peer key now
      ((h₁.trySend peer (.subscribe key.1 key.2 epoch generation) now).2.scheduleSubscribeRetry peer
        key g subscribeReplaySendRetries)

theorem resubscribeStream_spec (h : MediaHub cfg) (peer : UInt64) (key : StreamKey) (now : Nat) :
    Resubscribed h peer key now (h.resubscribeStream peer key now) := by
  rw [resubscribeStream]
  by_cases hown : h.ownsStream key = true
  · rw [if_pos hown]
    exact .own
  rw [if_neg hown]
  obtain ⟨g, h₁, heq, houtbound, hretries, hpeers, hownership⟩ :
      ∃ (g : UInt64) (h₁ : MediaHub cfg),
      (if h.subGen peer key = 0 then h.bumpSubGen peer key else (h.subGen peer key, h)) = (g, h₁) ∧
      h₁.outbound = h.outbound ∧ h₁.retries = h.retries ∧ h₁.peers = h.peers ∧
      h₁.ownership = h.ownership := by
    split_ifs <;> exact ⟨_, _, rfl, rfl, rfl, rfl, rfl⟩
  rw [heq]
  dsimp only
  split_ifs with hsent
  · exact .sent h₁ _ _ houtbound hretries hpeers hownership hsent
  · exact .refused h₁ _ _ g houtbound hretries hpeers hownership (Bool.eq_false_iff.2 hsent)

theorem Inv.resubscribed (hinv : h.Inv) (hfree : h.Free peer key)
    (hwired : h.outbound.isWired peer key = false) (hhas : h.outbound.has peer key)
    (hr : Resubscribed h peer key now h') : h'.Inv := by
  cases hr with
  | own => exact hinv
  | sent h₁ epoch generation houtbound hretries hpeers _ hsent =>
    have hinv₁ : h₁.Inv := hinv.congr houtbound hretries (channel_congr hpeers)
    refine hinv₁.subscribed ?_ ?_ ?_ hsent
    · exact fun r hr => hfree r (hretries ▸ hr)
    · rw [houtbound, hwired]
    · rw [houtbound, hhas]
  | refused h₁ epoch generation g houtbound hretries hpeers _ hsent =>
    have hinv₁ : h₁.Inv := hinv.congr houtbound hretries (channel_congr hpeers)
    exact (hinv₁.trySend (.inl hsent)).schedule peer key g _

/-- What replays and new peers keep: the references and the tracker; and no retry that is new is
under way. -/
structure Later (h h' : MediaHub cfg) : Prop where
  has : ∀ q k, h'.outbound.has q k = h.outbound.has q k
  refs : ∀ q k, h'.outbound.refs q k = h.outbound.refs q k
  ownership : h'.ownership = h.ownership
  retries : ∀ r ∈ h'.retries, r ∈ h.retries ∨ r.phase = .asleep

theorem Later.refl (h : MediaHub cfg) : Later h h :=
  ⟨fun _ _ => rfl, fun _ _ => rfl, rfl, fun _ hr => .inl hr⟩

theorem Later.trans {h₁ h₂ h₃ : MediaHub cfg} (h₁₂ : Later h₁ h₂) (h₂₃ : Later h₂ h₃) :
    Later h₁ h₃ :=
  ⟨fun q k => (h₂₃.has q k).trans (h₁₂.has q k), fun q k => (h₂₃.refs q k).trans (h₁₂.refs q k),
    h₂₃.ownership.trans h₁₂.ownership, fun r hr => (h₂₃.retries r hr).elim (h₁₂.retries r) .inr⟩

theorem Later.free (hlater : Later h h') (hfree : h.Free peer key) : h'.Free peer key := by
  intro r hr
  rcases hlater.retries r hr with hold | hasleep
  · exact hfree r hold
  · rw [RetryTask.busyOn, hasleep]
    rfl

theorem Later.of_eq (houtbound : h'.outbound = h.outbound) (hownership : h'.ownership = h.ownership)
    (hretries : h'.retries = h.retries) : Later h h' :=
  ⟨fun _ _ => by rw [houtbound], fun _ _ => by rw [houtbound], hownership,
    fun _ hr => .inl (hretries ▸ hr)⟩

theorem later_trySend (h : MediaHub cfg) (peer : UInt64) (msg : MediaMessage) (now : Nat) :
    Later h (h.trySend peer msg now).2 :=
  .of_eq (outbound_trySend ..) (h.trySend_frame ..).2 (retries_trySend ..)

theorem later_setWired (h : MediaHub cfg) (peer : UInt64) (key : StreamKey) (wired : Bool) :
    Later h (h.setWired peer key wired) :=
  ⟨fun q k => OutboundSubscriptions.has_setWired wired q k,
    fun q k => OutboundSubscriptions.refs_setWired wired q k, rfl, fun _ hr => .inl hr⟩

theorem later_schedule (h : MediaHub cfg) (peer : UInt64) (key : StreamKey) (generation : UInt64)
    (sendRetries : Nat) : Later h (h.scheduleSubscribeRetry peer key generation sendRetries) := by
  refine ⟨fun _ _ => rfl, fun _ _ => rfl, rfl, fun r hr => ?_⟩
  rw [scheduleSubscribeRetry, mem_append, mem_singleton] at hr
  rcases hr with hr | rfl
  · exact .inl hr
  · exact .inr rfl

theorem Resubscribed.later (hr : Resubscribed h peer key now h') : Later h h' := by
  cases hr with
  | own => exact .refl h
  | sent h₁ epoch generation houtbound hretries hpeers hownership hsent =>
    exact ((Later.of_eq houtbound hownership hretries).trans (later_trySend h₁ peer _ now)).trans
      (later_setWired _ peer key true)
  | refused h₁ epoch generation g houtbound hretries hpeers hownership hsent =>
    exact ((Later.of_eq houtbound hownership hretries).trans (later_trySend h₁ peer _ now)).trans
      (later_schedule _ peer key g _)

theorem Resubscribed.other (hr : Resubscribed h peer key now h') {k : StreamKey} (hk : k ≠ key) :
    h'.outbound.isWired peer k = h.outbound.isWired peer k := by
  cases hr with
  | own => rfl
  | sent h₁ epoch generation houtbound => simp [setWired, houtbound, hk]
  | refused h₁ epoch generation g houtbound => simp [scheduleSubscribeRetry, houtbound]

/-- **Replaying.** The streams are distinct, so each is sent once. -/
theorem Inv.replayed (streams : List StreamKey) (hnodup : streams.Nodup) {h : MediaHub cfg}
    (hinv : h.Inv) (hfree : ∀ k, h.Free peer k)
    (hstreams : ∀ k ∈ streams, h.outbound.isWired peer k = false ∧ h.outbound.has peer k) :
    (streams.foldl (fun h k => h.resubscribeStream peer k now) h).Inv := by
  induction streams generalizing h with
  | nil => exact hinv
  | cons k streams ih =>
    obtain ⟨hk, hrest⟩ := nodup_cons.1 hnodup
    have hspec := h.resubscribeStream_spec peer k now
    obtain ⟨hwired, hhas⟩ := hstreams k mem_cons_self
    refine ih hrest (hinv.resubscribed (hfree k) hwired hhas hspec)
      (fun j => hspec.later.free (hfree j)) fun j hj => ?_
    rw [hspec.other fun hjk => hk (hjk ▸ hj), hspec.later.has]
    exact hstreams j (mem_cons_of_mem _ hj)

theorem Inv.resubscribePeer (hinv : h.Inv) (hfree : ∀ k, h.Free peer k)
    (hquiet : ∀ k, h.outbound.has peer k → h.quiet peer k) :
    (h.resubscribePeer peer now).Inv := by
  rw [MediaHub.resubscribePeer]
  split
  · exact hinv
  · refine Inv.replayed _ OutboundSubscriptions.nodup_streamsForPeer (hinv.cleared hquiet)
      hfree fun k hk => ⟨?_, OutboundSubscriptions.mem_streamsForPeer.1 hk⟩
    rw [OutboundSubscriptions.isWired_clearWired, if_pos rfl]

theorem Inv.ensurePeer (hinv : h.Inv) {addr : String}
    (hfree : h.needsPeer peer addr → ∀ k, h.Free peer k) :
    (h.ensurePeer peer addr now).Inv := by
  rw [MediaHub.ensurePeer]
  split_ifs with hneeds
  · have hchannel := @channel_insert cfg h peer ⟨h.nextIncarnation, addr, .new, true, .waiting⟩
    refine Inv.resubscribePeer ⟨fun q k c hc => ?_, hinv.retries⟩ (hfree hneeds) fun k _ => ?_
    · have hc' := (hchannel q k).symm.trans hc
      split_ifs at hc' with hq
      · cases hc'
        exact Kept.start
      · exact (hinv.kept q k c hc').mono fun hidle => ⟨hidle.unwired, hidle.unmarked⟩
    · refine quiet_iff.2 fun c hc => ?_
      have hc' := (hchannel peer k).symm.trans hc
      rw [if_pos rfl] at hc'
      cases hc'
      exact ⟨rfl, nofun⟩
  · exact hinv

theorem later_replayed (streams : List StreamKey) (h : MediaHub cfg) :
    Later h (streams.foldl (fun h k => h.resubscribeStream peer k now) h) := by
  induction streams generalizing h with
  | nil => exact .refl h
  | cons k streams ih => exact (h.resubscribeStream_spec peer k now).later.trans (ih _)

theorem later_resubscribePeer (h : MediaHub cfg) : Later h (h.resubscribePeer peer now) := by
  rw [resubscribePeer]
  split
  · exact .refl h
  · have hcleared : Later h { h with outbound := h.outbound.clearWired peer } :=
      ⟨by simp, by simp, rfl, fun r hr => .inl hr⟩
    exact hcleared.trans (later_replayed _ _)

theorem later_ensurePeer (h : MediaHub cfg) (peer : UInt64) (addr : String) (now : Nat) :
    Later h (h.ensurePeer peer addr now) := by
  rw [ensurePeer]
  split_ifs
  · have hnew : Later h { h with
        peers := h.peers.insert peer ⟨h.nextIncarnation, addr, .new, true, .waiting⟩
        nextIncarnation := h.nextIncarnation + 1 } := .of_eq rfl rfl rfl
    exact hnew.trans (later_resubscribePeer _)
  · exact .refl h

/-! ### Subscribing -/

theorem Inv.dropped (hinv : h.Inv) (hfree : h.Free peer key)
    (hwired : h.outbound.isWired peer key = false) :
    Inv { h with outbound := h.outbound.erase (peer, key) } := by
  refine hinv.table (fun q k => ?_) fun r hr hbusy hhas => ?_
  · rw [OutboundSubscriptions.isWired_erase]
    split_ifs with hk
    · cases hk
      exact hwired.symm
    · rfl
  · rw [OutboundSubscriptions.has_erase, hhas, decide_eq_false (hfree.ne hr hbusy)]
    rfl

theorem Inv.sendSubscribe (hinv : h.Inv) (hfree : h.Free peer key)
    (hwired : h.outbound.isWired peer key = false) (hhas : h.outbound.has peer key)
    (epoch : UInt64) (owner : String) : (h.sendSubscribe peer key epoch owner now).2.Inv := by
  rw [MediaHub.sendSubscribe]
  dsimp only
  have houtbound := h.outbound_trySend peer (h.subscribeMessage peer key epoch) now
  have hretries := h.retries_trySend peer (h.subscribeMessage peer key epoch) now
  by_cases hsent : (h.trySend peer (h.subscribeMessage peer key epoch) now).1 = true
  · rw [if_pos hsent]
    exact hinv.subscribed hfree hwired hhas hsent
  rw [if_neg hsent]
  have hinv₁ := hinv.trySend (.inl (Bool.eq_false_iff.2 hsent))
  -- nothing was sent, so the hub is as before as far as the key goes
  generalize (h.trySend peer (h.subscribeMessage peer key epoch) now).2 = h₁ at *
  have hfree₁ : h₁.Free peer key := fun r hr => hfree r (hretries ▸ hr)
  rw [← houtbound] at hwired hhas
  rcases @OutboundSubscriptions.removeIfSole_spec h₁.outbound owner peer key with hsole | hsole
  · rw [hsole]
    exact (hinv₁.dropped hfree₁ hwired).bump peer key
  · rw [hsole]
    dsimp only
    split_ifs with hagain
    · exact hinv₁.subscribed hfree₁ hwired hhas hagain
    · exact hinv₁.trySend (.inl (Bool.eq_false_iff.2 hagain))

theorem Inv.subscribeRemote (hinv : h.Inv) (hfree : h.Free peer key) {addr : String}
    (hpeer : h.needsPeer peer addr → ∀ k, h.Free peer k) (epoch : UInt64) (owner : String) :
    (h.subscribeRemote peer key addr epoch owner now).2.Inv := by
  rw [MediaHub.subscribeRemote]
  dsimp only
  -- the hub with the new reference
  obtain ⟨h₁, hdef, houtbound, hretries, hpeers⟩ : ∃ h₁ : MediaHub cfg,
      h.addRef peer key owner = h₁ ∧ h₁.outbound = (h.outbound.add owner peer key).1 ∧
      h₁.retries = h.retries ∧ h₁.peers = h.peers := ⟨_, rfl, rfl, rfl, rfl⟩
  rw [hdef]
  have hinv₁ : h₁.Inv :=
    (hinv.table (t := (h.outbound.add owner peer key).1) (by simp)
      fun r _ _ hhas => by simp [hhas]).congr houtbound hretries (channel_congr hpeers)
  have hfree₁ : h₁.Free peer key := fun r hr => hfree r (hretries ▸ hr)
  have hinv₂ : (h₁.ensurePeer peer addr now).Inv := by
    refine hinv₁.ensurePeer fun hneeds k r hr => ?_
    rw [needsPeer, hpeers] at hneeds
    exact hpeer hneeds k r (hretries ▸ hr)
  split_ifs with haddr hwired hown
  · exact hinv₁
  · exact hinv₂
  · exact hinv₂
  · have hlater := h₁.later_ensurePeer peer addr now
    refine hinv₂.sendSubscribe (hlater.free hfree₁) (Bool.eq_false_iff.2 hwired) ?_ epoch owner
    rw [hlater.has, houtbound]
    simp

theorem Inv.unsubscribeRemote (hinv : h.Inv) (hfree : h.Free peer key) {owner : String}
    (htakes : (h.outbound.remove owner peer key).2 →
      h.takes peer (.unsubscribe key.1 key.2) now) :
    (h.unsubscribeRemote peer key owner now).Inv := by
  rw [MediaHub.unsubscribeRemote]
  rcases @OutboundSubscriptions.remove_spec h.outbound owner peer key with
    ⟨hlast, -⟩ | ⟨hlast, hwired, hhas⟩
  · rw [hlast] at htakes ⊢
    exact hinv.unsubscribed hfree (htakes rfl)
  · have hinv' := hinv.table hwired fun r _ _ hr => (hhas r.peer r.key).trans hr
    generalize h.outbound.remove owner peer key = r at *
    obtain ⟨t, last⟩ := r
    cases hlast
    exact hinv'

theorem Inv.unsubscribeRemoteAll (hinv : h.Inv) (hfree : h.Free peer key)
    (htakes : h.outbound.has peer key →
      h.takes peer (.unsubscribe key.1 key.2) now) :
    (h.unsubscribeRemoteAll peer key now).Inv := by
  rw [MediaHub.unsubscribeRemoteAll, OutboundSubscriptions.removeAll]
  cases hhas : h.outbound.has peer key with
  | true => exact hinv.unsubscribed hfree (htakes hhas)
  | false =>
    refine hinv.dropped hfree (Bool.eq_false_iff.2 fun hwired => ?_)
    rw [OutboundSubscriptions.has_of_isWired hwired] at hhas
    cases hhas

/-! ### Retrying -/

section Retry

variable {i : Nat} {t : RetryTask}

theorem mem_set_of_ne {l : List RetryTask} {r u : RetryTask} (ht : l[i]? = some t) (hr : r ∈ l)
    (hne : r ≠ t) : r ∈ l.set i u := by
  obtain ⟨j, hj⟩ := mem_iff_getElem?.1 hr
  refine mem_iff_getElem?.2 ⟨j, ?_⟩
  rw [getElem?_set_ne, hj]
  rintro rfl
  exact hne (some.inj (hj.symm.trans ht))

theorem Inv.goOn (hinv : h.Inv) (ht : h.retries[i]? = some t) (hphase : t.phase ≠ .markWired)
    {phase : RetryPhase} (hheld : phase.busy → h.outbound.has t.peer t.key)
    (hunwired : phase.trusts → h.outbound.isWired t.peer t.key = false)
    (halone : phase.busy → t.phase.busy ∨ h.Free t.peer t.key) :
    (h.setRetry i t phase).Inv := by
  refine hinv.flags (fun _ _ => rfl) (fun q k => .inl fun hidle => ⟨hidle.unwired, ?_⟩)
    (hinv.retries.goOn ht hheld hunwired halone)
  intro r hr hpeer hkey hmark
  refine hidle.unmarked r (mem_set_of_ne ht hr ?_) hpeer hkey hmark
  rintro rfl
  exact hphase hmark

theorem Inv.finish (hinv : h.Inv) (ht : h.retries[i]? = some t) (hphase : t.phase ≠ .markWired) :
    (h.setRetry i t .done).Inv :=
  hinv.goOn ht hphase nofun nofun nofun

theorem Inv.keepOn (hinv : h.Inv) (ht : h.retries[i]? = some t) (htrusts : t.phase.trusts)
    (phase : RetryPhase) : (h.setRetry i t phase).Inv := by
  have hmem := mem_of_getElem? ht
  have hbusy := RetryPhase.busy_of_trusts htrusts
  refine hinv.goOn ht ?_ (fun _ => hinv.retries.held t hmem hbusy)
    (fun _ => hinv.retries.unwired t hmem htrusts) fun _ => .inl hbusy
  intro hphase
  rw [hphase] at htrusts
  cases htrusts

theorem Inv.retried (hinv : h.Inv) (ht : h.retries[i]? = some t) (htrusts : t.phase.trusts)
    {epoch generation : UInt64}
    (hsent : (h.trySend t.peer (.subscribe t.key.1 t.key.2 epoch generation) now).1) :
    ((h.trySend t.peer (.subscribe t.key.1 t.key.2 epoch generation) now).2.setRetry i t
      .markWired).Inv := by
  have hmem := List.mem_of_getElem? ht
  have hbusy := RetryPhase.busy_of_trusts htrusts
  have hi : i < h.retries.length := (List.getElem?_eq_some_iff.1 ht).1
  refine hinv.signals (b := true) (fun _ => rfl) (fun _ => hsent) (fun _ _ => rfl)
    (fun q k hk hidle => ⟨?_, fun r hr hpeer hkey => hidle.unmarked r ?_ hpeer hkey⟩)
    (fun _ => ⟨⟨hinv.retries.unwired t hmem htrusts, fun r hr hpeer hkey hmark => ?_⟩,
      fun hidle => hidle.unmarked { t with phase := .markWired } ?_ rfl rfl rfl⟩) ?_
  · simpa [setRetry] using hidle.unwired
  · simp only [setRetry, retries_trySend]
    refine mem_set_of_ne ht hr ?_
    rintro rfl
    exact hk (by rw [hpeer, hkey])
  · have hsame := hinv.retries.eq_of_busyOn hr hmem
      (RetryTask.busyOn_iff.2 ⟨by rw [hmark]; rfl, hpeer, hkey⟩)
      (RetryTask.busyOn_iff.2 ⟨hbusy, rfl, rfl⟩)
    rw [← hsame, hmark] at htrusts
    cases htrusts
  · simpa only [setRetry, retries_trySend] using mem_set hi _
  · simp only [setRetry, outbound_trySend, retries_trySend]
    exact hinv.retries.goOn ht (fun _ => hinv.retries.held t hmem hbusy) nofun fun _ => .inl hbusy

theorem Inv.marked (hinv : h.Inv) (ht : h.retries[i]? = some t) (hphase : t.phase = .markWired) :
    ((h.setWired t.peer t.key true).setRetry i t .done).Inv := by
  have hbusy : t.phase.busy = true := by rw [hphase]; rfl
  have hhas := hinv.retries.held t (mem_of_getElem? ht) hbusy
  have hdone : RetriesOk h.outbound (h.retries.set i { t with phase := .done }) :=
    hinv.retries.goOn ht nofun nofun nofun
  -- a retry that is under way for the key would be this one, and this one is done
  have hfree : (h.setRetry i t .done).Free t.peer t.key := hinv.retries.free_of_done ht hbusy
  refine hinv.flags (fun _ _ => rfl) (fun q k => .inl fun hidle => ?_)
    (hdone.outbound (fun r _ _ hr => ?_) fun r hr hbr hunwired => ?_)
  · have hunwired := hidle.unwired
    simp only [setRetry, setWired, OutboundSubscriptions.isWired_setWired, hhas,
      Bool.and_true] at hunwired
    split_ifs at hunwired with hk
    refine ⟨hunwired, fun r hr hpeer hkey => hidle.unmarked r (mem_set_of_ne ht hr ?_) hpeer hkey⟩
    rintro rfl
    exact hk (by rw [hpeer, hkey])
  · simpa [setRetry, setWired] using hr
  · simp only [setRetry, setWired, OutboundSubscriptions.isWired_setWired]
    rw [if_neg (hfree.ne hr hbr), hunwired]

theorem retrySend_spec (h : MediaHub cfg) (peer : UInt64) (incarnation : Nat) (msg : MediaMessage)
    (now : Nat) : h.retrySend peer incarnation msg now = h.trySend peer msg now ∨
      h.retrySend peer incarnation msg now = (false, h) := by
  grind [retrySend]

/-- **Retrying.** Every section keeps the invariant, if no other retry is under way for the key when
this one finds the reference. -/
theorem Inv.runSubscribeRetry (hinv : h.Inv) (ht : h.retries[i]? = some t)
    (hfree : t.phase = .checkRef → h.Free t.peer t.key) {shutdown : Bool}
    (hstep : h.runSubscribeRetry i t shutdown now = some h') : h'.Inv := by
  have hmem := mem_of_getElem? ht
  rw [MediaHub.runSubscribeRetry] at hstep
  split at hstep
  case h_1 hphase =>
    cases hstep
    split_ifs
    · exact hinv.finish ht (by rw [hphase]; nofun)
    · exact hinv.goOn ht (by rw [hphase]; nofun) nofun nofun nofun
  case h_2 hphase =>
    cases hstep
    split_ifs with hhas
    · exact hinv.goOn ht (by rw [hphase]; nofun) (fun _ => hhas) nofun fun _ => .inr (hfree hphase)
    · exact hinv.finish ht (by rw [hphase]; nofun)
  case h_3 hphase =>
    cases hstep
    have hbusy : t.phase.busy = true := by rw [hphase]; rfl
    split_ifs with hwired
    · exact hinv.finish ht (by rw [hphase]; nofun)
    · exact hinv.goOn ht (by rw [hphase]; nofun) (fun _ => hinv.retries.held t hmem hbusy)
        (fun _ => Bool.eq_false_iff.2 hwired) fun _ => .inl hbusy
  case h_4 hphase =>
    cases hstep
    exact hinv.keepOn ht (by rw [hphase]; rfl) _
  case h_5 hphase =>
    split at hstep <;> cases hstep
    · exact hinv.keepOn ht (by rw [hphase]; rfl) _
    · exact hinv.keepOn ht (by rw [hphase]; rfl) _
  case h_6 hphase =>
    cases hstep
    exact hinv.keepOn ht (by rw [hphase]; rfl) _
  case h_7 incarnation epoch generation hphase =>
    have htrusts : t.phase.trusts = true := by rw [hphase]; rfl
    have hnomark : t.phase ≠ .markWired := by rw [hphase]; nofun
    dsimp only at hstep
    rcases h.retrySend_spec t.peer incarnation (.subscribe t.key.1 t.key.2 epoch generation) now
      with hsend | hsend
    · rw [hsend] at hstep
      by_cases hsent :
          (h.trySend t.peer (.subscribe t.key.1 t.key.2 epoch generation) now).1 = true
      · rw [if_pos hsent] at hstep
        cases hstep
        exact hinv.retried ht htrusts hsent
      · rw [if_neg hsent] at hstep
        cases hstep
        have hinv' := hinv.trySend (.inl (Bool.eq_false_iff.2 hsent))
        have ht' : (h.trySend t.peer (.subscribe t.key.1 t.key.2 epoch generation) now).2.retries[i]?
            = some t := by
          rw [retries_trySend, ht]
        have hdone := hinv'.finish ht' hnomark
        split_ifs
        · exact hdone.schedule _ _ _ _
        · exact hdone
    · rw [hsend, if_neg Bool.false_ne_true] at hstep
      cases hstep
      have hdone := hinv.finish ht hnomark
      split_ifs
      · exact hdone.schedule _ _ _ _
      · exact hdone
  case h_8 hphase =>
    cases hstep
    exact hinv.marked ht hphase
  case h_9 => cases hstep

end Retry

/-! ### Answers -/

theorem Inv.unwired (hinv : h.Inv) (hquiet : h.quiet peer key) :
    (h.setWired peer key false).Inv := by
  refine hinv.flags (fun _ _ => rfl) (fun q k => ?_) (hinv.retries.outbound (fun r _ _ hr => ?_)
    fun r _ _ hr => ?_)
  · by_cases hk : (q, k) = (peer, key)
    · cases hk
      exact .inr hquiet
    · exact .inl fun hidle => ⟨by simpa [setWired, hk] using hidle.unwired, hidle.unmarked⟩
  · simpa [setWired] using hr
  · simp [setWired, hr]

theorem Inv.handleAnswer (hinv : h.Inv) {a : AnswerTask}
    (hquiet : ∀ generation, a.phase = .unwire generation → h.quiet a.peer a.key) :
    (h.handleAnswer a).Inv := by
  rw [MediaHub.handleAnswer]
  split
  case h_1 => split_ifs <;> exact hinv.congr rfl rfl fun _ _ => rfl
  case h_2 =>
    dsimp only
    split_ifs <;> exact hinv.congr rfl rfl fun _ _ => rfl
  case h_3 generation hphase =>
    exact (hinv.unwired (hquiet generation hphase)).congr rfl rfl fun _ _ => rfl
  case h_4 =>
    dsimp only
    split_ifs <;> exact hinv.congr rfl rfl fun _ _ => rfl
  case h_5 generation n hphase =>
    obtain ⟨g, h₁, heq, hinv₁⟩ : ∃ (g : UInt64) (h₁ : MediaHub cfg),
        (if generation = 0 then h.bumpSubGen a.peer a.key else (generation, h)) = (g, h₁) ∧
          h₁.Inv := by
      split_ifs
      · exact ⟨_, _, rfl, hinv.bump a.peer a.key⟩
      · exact ⟨_, _, rfl, hinv⟩
    rw [heq]
    dsimp only
    split_ifs
    · exact (hinv₁.schedule a.peer a.key g 2).congr rfl rfl fun _ _ => rfl
    · exact hinv₁.congr rfl rfl fun _ _ => rfl
    · exact (hinv₁.schedule a.peer a.key g _).congr rfl rfl fun _ _ => rfl
  case h_6 => exact hinv.congr rfl rfl fun _ _ => rfl
  case h_7 => exact hinv.congr rfl rfl fun _ _ => rfl
  case h_8 =>
    dsimp only
    split_ifs <;> exact (hinv.bump a.peer a.key).congr rfl rfl fun _ _ => rfl

/-! ### The connection -/

/-- A change of a peer that keeps the discipline of its channels. -/
def KeepsChannels (p p' : MediaPeer cfg.queue) : Prop :=
  ∀ (k : StreamKey) (idle : Prop),
    Kept idle (p.phase.tally k) (p.phase.signals k ++ p.queue.queue.signals k) →
    Kept idle (p'.phase.tally k) (p'.phase.signals k ++ p'.queue.queue.signals k)

theorem Inv.insertPeer (hinv : h.Inv) {p p' : MediaPeer cfg.queue}
    (hp : h.peers.lookup peer = some p) (hkeeps : KeepsChannels p p') :
    Inv { h with peers := h.peers.insert peer p' } := by
  refine ⟨fun q k c hc => ?_, hinv.retries⟩
  refine Kept.mono ?_ fun hidle => (⟨hidle.unwired, hidle.unmarked⟩ : h.Idle q k)
  rw [channel_insert] at hc
  split_ifs at hc with hq
  · cases hc
    refine hkeeps k _ (hinv.kept q k (p.phase.tally k, p.phase.signals k ++ p.queue.queue.signals k) ?_)
    rw [hq, channel, hp]
    rfl
  · exact hinv.kept q k c hc

theorem Inv.updatePeer (hinv : h.Inv) {f : MediaPeer cfg.queue → Option (MediaPeer cfg.queue)}
    (hf : ∀ p p', f p = some p' → KeepsChannels p p') (hstep : h.updatePeer peer f = some h') :
    h'.Inv := by
  obtain ⟨p, hp, hmap⟩ := bind_eq_some_iff.1 hstep
  obtain ⟨p', hp', rfl⟩ := map_eq_some_iff.1 hmap
  exact hinv.insertPeer hp (hf p p' hp')

theorem keepsChannels_write {p : MediaPeer cfg.queue} {link : Link} (hphase : p.phase = .running link)
    (now : Nat) :
    KeepsChannels p { p with
      queue := (p.queue.pop now).2
      phase := .running { link with wire := link.wire ++ (p.queue.pop now).1.toList } } := by
  intro k idle hk
  rw [hphase] at hk
  have hpop := (p.queue.queue.popAt_spec cfg.queue now).signals k
  have hsignals : Link.signals { link with wire := link.wire ++ (p.queue.pop now).1.toList } k =
      link.signals k ++ ((p.queue.queue.popAt cfg.queue now).1.bind fun e =>
        e.msg.signal k).toList := by
    rw [Link.signals, filterMap_append, ← append_assoc, Link.signals]
    congr 1
    show filterMap _ ((p.queue.queue.popAt cfg.queue now).1.map QueueEntry.msg).toList = _
    cases (p.queue.queue.popAt cfg.queue now).1 with
    | none => rfl
    | some e =>
      show filterMap _ [e.msg] = (e.msg.signal k).toList
      rw [filterMap_cons_toList, filterMap_nil, append_nil]
  show Kept idle _ (Link.signals _ k ++ (p.queue.queue.popAt cfg.queue now).2.signals k)
  rw [hsignals, append_assoc, ← hpop]
  exact hk

theorem keepsChannels_lost {p : MediaPeer cfg.queue} {queue : PeerQueue cfg.queue}
    (hqueue : ∀ k, ∃ popped, p.queue.queue.signals k = popped ++ queue.queue.signals k) :
    KeepsChannels p { p with queue, phase := .waiting } := by
  intro k idle hk
  obtain ⟨popped, hpopped⟩ := hqueue k
  rw [hpopped, ← append_assoc] at hk
  exact hk.lost

theorem Inv.connectionLost (hinv : h.Inv) {last : PeerQueue cfg.queue → PeerQueue cfg.queue}
    (hlast : ∀ (q : PeerQueue cfg.queue) (k : StreamKey),
      ∃ popped, q.queue.signals k = popped ++ (last q).queue.signals k)
    (hstep : h.connectionLost peer last = some h') : h'.Inv := by
  obtain ⟨h₁, hupdate, rfl⟩ := map_eq_some_iff.1 hstep
  refine Inv.congr (hinv.updatePeer (fun p p' hp => ?_) hupdate) rfl rfl fun _ _ => rfl
  split at hp
  · cases hp
    exact keepsChannels_lost (hlast p.queue)
  · cases hp

/-! ### Runs -/

def isFree (h : MediaHub cfg) (peer : UInt64) (key : StreamKey) : Bool :=
  h.retries.all fun r => !r.busyOn peer key

def isPeerFree (h : MediaHub cfg) (peer : UInt64) : Bool :=
  h.retries.all fun r => !(r.phase.busy && r.peer == peer)

theorem free_of_isFree (hfree : h.isFree peer key) : h.Free peer key := by
  simpa [isFree, Free] using hfree

theorem free_of_isPeerFree (hfree : h.isPeerFree peer) (k : StreamKey) :
    h.Free peer k := by
  intro r hr
  have := all_eq_true.1 hfree r hr
  grind [RetryTask.busyOn]

/-- What a step must find. No other step works on a key, or sets up or replays a connection of its
peer, while a retry of the key is under way; an `Unsubscribe` finds room; a replay and an answer
that clears a flag find the streams quiet. -/
def careful (h : MediaHub cfg) : HubOp → Bool
  | .subscribe addr peer key _ _ _ =>
    h.isFree peer key && (!h.needsPeer peer addr || h.isPeerFree peer)
  | .unsubscribe owner peer key now =>
    h.isFree peer key && (!(h.outbound.remove owner peer key).2 ||
      h.takes peer (.unsubscribe key.1 key.2) now)
  | .unsubscribeAll peer key now =>
    h.isFree peer key && (!h.outbound.has peer key ||
      h.takes peer (.unsubscribe key.1 key.2) now)
  | .connectPeer peer addr _ => !h.needsPeer peer addr || h.isPeerFree peer
  | .resubscribe _ =>
    match h.reconnects with
    | [] => true
    | peer :: _ => h.isPeerFree peer && (h.outbound.streamsForPeer peer).all (h.quiet peer)
  | .retry i _ _ =>
    match h.retries[i]? with
    | some t => t.phase != .checkRef || h.isFree t.peer t.key
    | none => true
  | .answer =>
    match h.answering with
    | some a =>
      match a.phase with
      | .unwire _ => h.quiet a.peer a.key
      | _ => true
    | none => true
  | _ => true

theorem signal_of_not_subscription (hmsg : msg.isSubscription = false) (k : StreamKey) :
    msg.signal k = none := by
  cases msg <;> first | rfl | cases hmsg

section

variable (hinv : h.Inv)
include hinv

theorem Inv.step_resubscribe (hcareful : h.careful (.resubscribe now))
    (hstep : h.step (.resubscribe now) = some h') : h'.Inv := by
  rw [MediaHub.step] at hstep
  rw [MediaHub.careful] at hcareful
  split at hstep
  · cases hstep
  · rename_i peer reconnects hreconnects
    cases hstep
    rw [hreconnects] at hcareful
    obtain ⟨hfree, hquiet⟩ := Bool.and_eq_true_iff.1 hcareful
    have hinv' : Inv { h with reconnects } := hinv.congr rfl rfl fun _ _ => rfl
    refine hinv'.resubscribePeer (free_of_isPeerFree hfree) fun k hk => ?_
    exact all_eq_true.1 hquiet k (OutboundSubscriptions.mem_streamsForPeer.2 hk)

theorem Inv.step_answer (hcareful : h.careful .answer) (hstep : h.step .answer = some h') :
    h'.Inv := by
  rw [MediaHub.step] at hstep
  rw [MediaHub.careful] at hcareful
  split at hstep
  · rename_i a ha
    cases hstep
    rw [ha] at hcareful
    refine hinv.handleAnswer fun generation hphase => ?_
    dsimp only at hcareful
    rwa [hphase] at hcareful
  · split at hstep <;> cases hstep
    exact hinv.congr rfl rfl fun _ _ => rfl

theorem Inv.step_dial (hstep : h.step (.dial peer now) = some h') : h'.Inv := by
  refine hinv.updatePeer (fun p p' hp => ?_) hstep
  split at hp <;> cases hp
  rename_i hphase
  intro k idle hk
  rw [hphase] at hk
  show Kept idle 0 ([] ++ LiveQueue.signals (PeerQueue.queue (if _ then _ else _)) k)
  split_ifs
  · exact hk
  · rw [PeerQueue.onConnectionReset,
      LiveQueue.Maintained.signals k (p.queue.queue.maintained_onConnectionReset now)]
    exact hk

theorem Inv.step_ownerReads (hstep : h.step (.ownerReads peer) = some h') : h'.Inv := by
  refine hinv.updatePeer (fun p p' hp => ?_) hstep
  split at hp
  · rename_i link hphase
    obtain ⟨link', hread, rfl⟩ := map_eq_some_iff.1 hp
    intro k idle hk
    rw [hphase] at hk
    exact link.read_kept hread hk
  · cases hp

theorem Inv.step_owner {op : SessionOp} {sent : Bool}
    (hstep : h.step (.owner peer op sent) = some h') : h'.Inv := by
  rw [MediaHub.step] at hstep
  split at hstep
  · rename_i p hp
    split at hstep
    · rename_i link hphase
      obtain ⟨⟨link', answer⟩, hserve, rfl⟩ := map_eq_some_iff.1 hstep
      have hkeeps : KeepsChannels p { p with phase := .running link' } := by
        intro k idle hk
        rw [hphase] at hk
        exact link.serve_kept hserve hk
      exact Inv.congr (hinv.insertPeer hp hkeeps) rfl rfl fun _ _ => rfl
    · cases hstep
  · cases hstep

end

/-- **One step.** -/
theorem step_inv {op : HubOp} (hinv : h.Inv) (hcareful : h.careful op)
    (hstep : h.step op = some h') : h'.Inv := by
  cases op with
  | subscribe addr peer key epoch owner now =>
    cases hstep
    obtain ⟨hfree, hpeer⟩ := Bool.and_eq_true_iff.1 hcareful
    refine hinv.subscribeRemote (free_of_isFree hfree) (fun hneeds => ?_) epoch owner
    rw [hneeds] at hpeer
    exact free_of_isPeerFree hpeer
  | unsubscribe owner peer key now =>
    cases hstep
    obtain ⟨hfree, htakes⟩ := Bool.and_eq_true_iff.1 hcareful
    refine hinv.unsubscribeRemote (free_of_isFree hfree) fun hlast => ?_
    rwa [hlast] at htakes
  | unsubscribeAll peer key now =>
    cases hstep
    obtain ⟨hfree, htakes⟩ := Bool.and_eq_true_iff.1 hcareful
    refine hinv.unsubscribeRemoteAll (free_of_isFree hfree) fun hhas => ?_
    rwa [hhas] at htakes
  | connectPeer peer addr now =>
    cases hstep
    have hcareful : (!h.needsPeer peer addr || h.isPeerFree peer) = true := hcareful
    refine hinv.ensurePeer fun hneeds => ?_
    rw [hneeds] at hcareful
    exact free_of_isPeerFree hcareful
  | resubscribe now => exact hinv.step_resubscribe hcareful hstep
  | retry i shutdown now =>
    obtain ⟨t, ht, hrun⟩ := bind_eq_some_iff.1 hstep
    rw [MediaHub.careful, ht] at hcareful
    refine hinv.runSubscribeRetry ht (fun hphase => ?_) hrun
    dsimp only at hcareful
    rw [hphase] at hcareful
    exact free_of_isFree hcareful
  | answer => exact hinv.step_answer hcareful hstep
  | heard peer key =>
    cases hstep
    rw [clearSubscribeNacks]
    split_ifs <;> exact hinv.congr rfl rfl fun _ _ => rfl
  | ownership t | inbound t =>
    cases hstep
    exact hinv.congr rfl rfl fun _ _ => rfl
  | send peer msg now =>
    rw [MediaHub.step] at hstep
    split_ifs at hstep with hmsg
    cases hstep
    exact hinv.trySend (.inr (signal_of_not_subscription (Bool.eq_false_iff.2 hmsg)))
  | dial peer now => exact hinv.step_dial hstep
  | connected peer | dialFails peer | versionRejected peer =>
    refine hinv.updatePeer (fun p p' hp => ?_) hstep
    split at hp <;> cases hp
    rename_i hphase
    intro k idle hk
    rw [hphase] at hk
    exact hk
  | write peer now =>
    refine hinv.updatePeer (fun p p' hp => ?_) hstep
    split at hp <;> cases hp
    rename_i link hphase
    exact keepsChannels_write hphase now
  | writeFails peer now =>
    have hlost : h.connectionLost peer (fun queue => (queue.pop now).2) = some h' := hstep
    refine hinv.connectionLost (fun q k => ?_) hlost
    exact ⟨_, (q.queue.popAt_spec cfg.queue now).signals k⟩
  | connectionLost peer => exact hinv.connectionLost (fun q k => ⟨[], rfl⟩) hstep
  | ownerReads peer => exact hinv.step_ownerReads hstep
  | owner peer op sent => exact hinv.step_owner hstep

theorem run_inv {ops : List HubOp}
    (hcareful : along MediaHub.step MediaHub.careful ops (new : MediaHub cfg))
    (hrun : replay MediaHub.step .new ops = some h) : h.Inv :=
  replay_inv_along (P := Inv) (fun _ _ _ hinv hop hstep => step_inv hinv hop hstep) new_inv hcareful
    hrun

end MediaHub

/-- **One wire subscription.** In every run of careful steps, what the owner of a stream has counted
on the current connection and the `Subscribe`s less the `Unsubscribe`s on their way to it come to
one at most; and the owner has counted nothing once the last reference is gone and nothing is on its
way any more. -/
theorem one_wire_subscription (cfg : HubConfig) (ops : List HubOp) (h : MediaHub cfg)
    (hcareful : along MediaHub.step MediaHub.careful ops (.new : MediaHub cfg) = true)
    (hrun : replay MediaHub.step .new ops = some h) (peer : UInt64) (key : StreamKey) (n : Nat)
    (l : List Bool) (hc : h.channel peer key = some (n, l)) :
    (n : Int) + net l ≤ 1 ∧ (h.outbound.has peer key = false → l = [] → n = 0) := by
  have hinv := MediaHub.run_inv hcareful hrun
  have hkept := hinv.kept peer key (n, l) hc
  refine ⟨hkept.single.net_le, fun hhas hl => ?_⟩
  have hidle : h.Idle peer key := by
    refine ⟨?_, fun r hr hpeer hkey hmark => ?_⟩
    · by_contra hwired
      rw [OutboundSubscriptions.has_of_isWired (by simpa using hwired)] at hhas
      cases hhas
    · have hheld := hinv.retries.held r hr (by rw [hmark]; rfl)
      rw [hpeer, hkey, hhas] at hheld
      cases hheld
  have hsettled := hkept.settled hidle
  rw [hl] at hsettled
  exact hsettled

def smallHub : HubConfig := ⟨1, 8, 4096, 3000, 10000⟩

/-- Node 2 accepts what it reads next from node 1. -/
def ownerAccepts : List HubOp :=
  [.ownerReads 2, .owner 2 (.verdict .allow false) true, .owner 2 (.attempt true) true]

/-- A player of node 1 asks node 2 for a stream; the connection is lost once node 2 has accepted, and
the replay asks again. -/
def subscribeAndReplay : List HubOp :=
  [HubOp.subscribe "10.0.0.2:1936" 2 ("live", "cam") 1 "player" 0, .dial 2 0, .connected 2,
      .write 2 0] ++
    ownerAccepts ++ [HubOp.connectionLost 2, .resubscribe 1, .dial 2 2, .connected 2, .write 2 2] ++
    ownerAccepts

theorem one_wire_subscription_replayed :
    ∃ h : MediaHub smallHub, replay MediaHub.step .new subscribeAndReplay = some h ∧
      h.channel 2 ("live", "cam") = some (1, []) ∧ (1 : Int) + net [] ≤ 1 := by
  refine ⟨_, rfl, rfl, ?_⟩
  exact (one_wire_subscription smallHub subscribeAndReplay _ (by decide) rfl 2 ("live", "cam") 1 []
    rfl).1

/-- **The replay doubles what is queued.** A player comes before the replay: its `Subscribe` waits
in the queue for the next connection, and the replay adds another one. The owner counts both. -/
theorem replay_doubles_subscribe :
    ∃ h : MediaHub smallHub,
      replay MediaHub.step .new
        ([.connectPeer 2 "10.0.0.2:1936" 0, .dial 2 0, .connected 2, .connectionLost 2,
          .subscribe "10.0.0.2:1936" 2 ("live", "cam") 1 "player" 1, .resubscribe 1, .dial 2 2,
          .connected 2, .write 2 2, .write 2 2] ++ ownerAccepts ++ ownerAccepts) = some h ∧
      h.channel 2 ("live", "cam") = some (2, []) :=
  ⟨_, rfl, rfl⟩

end RtmpServer
