import RtmpServer.Poll.Visit

/-!
# Media is relayed on held routes only

A run of the poll loop: between two passes the library may change any session, and the other threads
the bridge and the set of deleted streams, as they like; the library only ever switches a relay off.
After every pass, each connection that is left is to be relayed only on the stream that the bridge
names for it, and the loop is to track only roles that the bridge holds. A pass has to find every
connection `Kept` or about to be closed: `relay_resumed_without_route` is a run without that.
-/

namespace RtmpServer.Poll

open List

open Lib.Replay

/-! ### The visits of a pass -/

/-- A connection is seen the same: by its entry and by its standing at the bridge. -/
def Shared.Same (conn : UInt64) (s s' : Shared) : Prop :=
  s'.entry conn = s.entry conn ∧ s'.bridge.standing conn = s.bridge.standing conn

variable {s s' s'' : Shared} {conn : UInt64} {p : Pass}

theorem Shared.Same.trans (h : s.Same conn s') (h' : s'.Same conn s'') : s.Same conn s'' :=
  ⟨h'.1.trans h.1, h'.2.trans h.2⟩

theorem Held.congr {deletedNow : Finset String} {c : Conn}
    (h : Held deletedNow c (s.entry c.connId) s.bridge) (hsame : s.Same c.connId s') :
    Held deletedNow c (s'.entry c.connId) s'.bridge := by
  have hcs : s'.bridge.connState c.connId = s.bridge.connState c.connId := congrArg Prod.fst hsame.2
  have hsid : s'.bridge.streamIdForConn c.connId = s.bridge.streamIdForConn c.connId :=
    congrArg ConnState.streamId hcs
  have hpublisher : s'.bridge.hasPublisher c.connId = s.bridge.hasPublisher c.connId :=
    congrArg (fun cs : ConnState => cs.publisher.isSome) hcs
  have hplayer : s'.bridge.hasPlayer c.connId = s.bridge.hasPlayer c.connId :=
    congrArg (fun cs : ConnState => cs.player.isSome) hcs
  rw [hsame.1]
  refine ⟨?_, ?_, ?_⟩
  · rw [hsid]
    exact h.route
  · rw [hpublisher]
    exact h.publishing
  · rw [hplayer]
    exact h.playing

structure Visitable (deletedNow : Finset String) (s : Shared) (c : Conn) : Prop where
  tracks : Tracks c (s.entry c.connId)
  kept : c.connId ∈ s.bridge.pendingForceClose ∨ (s.turn c).Kept deletedNow

theorem Visitable.congr {deletedNow : Finset String} {c : Conn} (h : Visitable deletedNow s c)
    (hsame : s.Same c.connId s') : Visitable deletedNow s' c := by
  refine ⟨by rw [hsame.1]; exact h.tracks, ?_⟩
  rcases h.kept with hforce | hkept
  · exact .inl ((iff_of_eq (congrArg Prod.snd hsame.2)).2 hforce)
  · right
    refine hkept.congr rfl ?_ (congrArg Prod.fst hsame.2)
    show ((s'.entry c.connId).publishing, (s'.entry c.connId).playing,
      (s'.entry c.connId).streamId) = _
    rw [hsame.1]
    rfl

theorem entry_leave (s : Shared) (t : Turn) : (s.leave t).entry t.conn.connId = t.entry := by
  rw [Shared.entry, Shared.leave, AList.lookup_insert]
  rfl

theorem entry_leave_ne (s : Shared) {t : Turn} (h : conn ≠ t.conn.connId) :
    (s.leave t).entry conn = s.entry conn := by
  rw [Shared.entry, Shared.leave, AList.lookup_insert_ne h]
  rfl

theorem visit_eq (p : Pass) (s : Shared) {c : Conn} (hopen : c.isOpen) :
    ∃ rejected, visit p s c =
      (s.leave (Turn.final ((s.turn c).visitConn p (p.visits c.connId))),
        (Turn.final ((s.turn c).visitConn p (p.visits c.connId))).conn, rejected) := by
  unfold visit
  rw [if_pos hopen]
  cases (s.turn c).visitConn p (p.visits c.connId) with
  | ok t => exact ⟨false, rfl⟩
  | error t => exact ⟨true, rfl⟩

theorem visit_others (p : Pass) (s : Shared) (c : Conn) :
    (visit p s c).2.1.connId = c.connId ∧
      ∀ conn, c.connId ≠ conn → s.Same conn (visit p s c).1 := by
  by_cases hopen : c.isOpen = true
  · obtain ⟨rejected, hvisit⟩ := visit_eq p s hopen
    have hwithin := (s.turn c).within_visitConn p (p.visits c.connId)
    rw [hvisit]
    refine ⟨hwithin.connId, fun conn hconn => ⟨?_, hwithin.others conn hconn⟩⟩
    refine entry_leave_ne s ?_
    rw [hwithin.connId]
    exact Ne.symm hconn
  · unfold visit
    rw [if_neg hopen]
    exact ⟨rfl, fun _ _ => ⟨rfl, rfl⟩⟩

theorem visit_held {c : Conn} (h : c.isOpen → Visitable p.deletedNow s c)
    (hkeep : (visit p s c).2.2 = false) (hopen : (visit p s c).2.1.isOpen) :
    Held p.deletedNow (visit p s c).2.1 ((visit p s c).1.entry c.connId) (visit p s c).1.bridge ∧
      Tracks (visit p s c).2.1 ((visit p s c).1.entry c.connId) := by
  have hid := (visit_others p s c).1
  unfold visit at hkeep hopen hid ⊢
  by_cases hc : c.isOpen = true
  · rw [if_pos hc] at hkeep hid ⊢
    cases hvisit : (s.turn c).visitConn p (p.visits c.connId) with
    | error t =>
      rw [hvisit] at hkeep
      cases hkeep
    | ok t =>
      rw [hvisit] at hid
      have hid : t.conn.connId = c.connId := hid
      have hentry : (s.leave t).entry c.connId = t.entry := by rw [← hid, entry_leave]
      show Held p.deletedNow t.conn ((s.leave t).entry c.connId) t.bridge ∧
        Tracks t.conn ((s.leave t).entry c.connId)
      rw [hentry]
      exact Turn.held_visitConn (h hc).kept (h hc).tracks hvisit
  · rw [if_neg hc] at hopen
    exact absurd hopen hc

theorem visitAll_others (p : Pass) (conns : List Conn) (s : Shared)
    (h : ∀ c ∈ conns, c.connId ≠ conn) : s.Same conn (visitAll p s conns).1 := by
  induction conns generalizing s with
  | nil => exact ⟨rfl, rfl⟩
  | cons c conns ih =>
    have hhere := (visit_others p s c).2 conn (h c mem_cons_self)
    exact hhere.trans (ih (visit p s c).1 fun c' hc' => h c' (mem_cons_of_mem _ hc'))

theorem connIds_visitAll (p : Pass) (conns : List Conn) (s : Shared) :
    (visitAll p s conns).2.map (·.1.connId) = conns.map (·.connId) := by
  induction conns generalizing s with
  | nil => rfl
  | cons c conns ih =>
    show (visit p s c).2.1.connId :: (visitAll p (visit p s c).1 conns).2.map (·.1.connId) = _
    rw [(visit_others p s c).1, ih, map_cons]

/-- All visits: each connection is seen as at the start of the pass, and left as its visit left it. -/
theorem visitAll_held {conns : List Conn} (hdistinct : (conns.map (·.connId)).Nodup)
    (h : ∀ c ∈ conns, c.isOpen → Visitable p.deletedNow s c) {c : Conn}
    (hc : (c, false) ∈ (visitAll p s conns).2) (hopen : c.isOpen) :
    Held p.deletedNow c ((visitAll p s conns).1.entry c.connId) (visitAll p s conns).1.bridge ∧
      Tracks c ((visitAll p s conns).1.entry c.connId) := by
  induction conns generalizing s with
  | nil => cases hc
  | cons first conns ih =>
    rw [map_cons, nodup_cons] at hdistinct
    obtain ⟨hfirst, hrest⟩ := hdistinct
    have hne (c' : Conn) (hc' : c' ∈ conns) : c'.connId ≠ first.connId :=
      fun heq => hfirst (mem_map.2 ⟨c', hc', heq⟩)
    have hothers := (visit_others p s first).2
    rcases mem_cons.1 hc with hhere | hlater
    · -- the later visits leave the first connection alone
      have hvisited : (visit p s first).2 = (c, false) := hhere.symm
      have hid : c.connId = first.connId := by rw [← (visit_others p s first).1, hvisited]
      have hheld := visit_held (h first mem_cons_self) (congrArg Prod.snd hvisited)
        ((congrArg (·.1.isOpen) hvisited).trans hopen)
      rw [hvisited, ← hid] at hheld
      have hsame : (visit p s first).1.Same c.connId (visitAll p (visit p s first).1 conns).1 := by
        rw [hid]
        exact visitAll_others p conns _ hne
      refine ⟨hheld.1.congr hsame, ?_⟩
      show Tracks c ((visitAll p (visit p s first).1 conns).1.entry c.connId)
      rw [hsame.1]
      exact hheld.2
    · refine ih hrest (fun c' hc' hopen' => ?_) hlater
      have hsame := hothers c'.connId fun heq => hne c' hc' heq.symm
      exact (h c' (mem_cons_of_mem _ hc') hopen').congr hsame

/-! ### The whole pass -/

theorem drop_others (p : Pass) (rejected : List UInt64) (s : Shared) (h : conn ∉ rejected) :
    s.Same conn (rejected.foldr (Shared.drop p) s) := by
  induction rejected with
  | nil => exact ⟨rfl, rfl⟩
  | cons id rejected ih =>
    rw [mem_cons, not_or] at h
    obtain ⟨hne, hrest⟩ := h
    refine (ih hrest).trans ?_
    rw [foldr_cons]
    generalize rejected.foldr (Shared.drop p) s = u
    refine ⟨?_, ?_⟩
    · rw [Shared.entry, Shared.drop, AList.lookup_erase_ne hne]
      rfl
    · show (Shared.closeConnOffPollThread u.bridge (p.visits id).close id).standing conn = _
      cases (p.visits id).close with
      | none => rfl
      | some w => exact standing_call (spares_onClose (Ne.symm hne)) w u.bridge

theorem connIds_process (p : Pass) (s : Shared) (conns : List Conn) :
    (process p s conns).2.map (·.connId) = conns.map (·.connId) := by
  rw [← connIds_visitAll p conns s]
  show ((visitAll p s conns).2.map settle).map (·.connId) = _
  rw [map_map]
  refine map_congr_left fun c _ => ?_
  show (settle c).connId = c.1.connId
  unfold settle
  split <;> rfl

/-- **One pass.** -/
theorem process_held {conns : List Conn} (hdistinct : (conns.map (·.connId)).Nodup)
    (h : ∀ c ∈ conns, c.isOpen → Visitable p.deletedNow s c) {c : Conn}
    (hc : c ∈ (process p s conns).2) (hopen : c.isOpen) :
    Held p.deletedNow c ((process p s conns).1.entry c.connId) (process p s conns).1.bridge ∧
      Tracks c ((process p s conns).1.entry c.connId) := by
  obtain ⟨visited, hvisited, rfl⟩ := mem_map.1 hc
  obtain ⟨c, rejected⟩ := visited
  cases rejected with
  | true => cases hopen
  | false =>
    show Held p.deletedNow c _ _ ∧ Tracks c _
    have hheld := visitAll_held hdistinct h hvisited hopen
    have hids : ((visitAll p s conns).2.map (·.1.connId)).Nodup := by
      rw [connIds_visitAll]
      exact hdistinct
    have hkeep : c.connId ∉ ((visitAll p s conns).2.filter (·.2)).map (·.1.connId) := by
      intro hmem
      obtain ⟨other, hother, hid⟩ := mem_map.1 hmem
      obtain ⟨hother, hrejected⟩ := mem_filter.1 hother
      have heq : other = (c, false) := inj_on_of_nodup_map hids hother hvisited hid
      rw [heq] at hrejected
      cases hrejected
    have hsame := drop_others p _ (visitAll p s conns).1 hkeep
    refine ⟨hheld.1.congr hsame, ?_⟩
    show Tracks c ((foldr (Shared.drop p) (visitAll p s conns).1 _).entry c.connId)
    rw [hsame.1]
    exact hheld.2

/-! ### Runs of the loop -/

structure Loop where
  connections : List Conn
  shared : Shared

/-- What the library makes of a connection: anything, but it never switches a relay on. -/
structure LibraryChange where
  isOpen : Bool
  currentStream : Option SessionStream
  pendingPublishAuthorization : Bool
  pendingPlayAuthorization : Bool
  pendingAuthorization : Bool
  keepRelay : Bool
  deriving DecidableEq, Repr

def Conn.change (c : Conn) (l : LibraryChange) : Conn :=
  { c with
    isOpen := c.isOpen && l.isOpen
    currentStream := l.currentStream
    pendingPublishAuthorization := l.pendingPublishAuthorization
    pendingPlayAuthorization := l.pendingPlayAuthorization
    pendingAuthorization := l.pendingAuthorization
    relayEnabled := c.relayEnabled && l.keepRelay }

inductive LoopEvent where
  /-- A new connection, with a new id. -/
  | accept (conn : UInt64)
  | library (conn : UInt64) (change : LibraryChange)
  /-- The library drops a connection that is closed. -/
  | reap (conn : UInt64)
  /-- The part of `close_vanished_conns` that concerns the loop. -/
  | forget (conn : UInt64)
  /-- What the other threads make of the bridge. -/
  | bridge (b : Bridge)
  | pass (p : Pass)

def Loop.step (l : Loop) : LoopEvent → Option Loop
  | .accept conn =>
    if conn ∈ l.connections.map (·.connId) ∨ conn ∈ l.shared.tracked then none
    else some { l with connections := l.connections ++ [{ connId := conn }] }
  | .library conn change =>
    some { l with connections := l.connections.map fun c => if c.connId = conn then c.change change else c }
  | .reap conn =>
    some { l with connections := l.connections.filter fun c => c.isOpen || c.connId ≠ conn }
  | .forget conn =>
    if l.connections.any fun c => c.isOpen && c.connId = conn then none
    else some { l with shared := { l.shared with tracked := l.shared.tracked.erase conn } }
  | .bridge b => some { l with shared := { l.shared with bridge := b } }
  | .pass p =>
    let done := process p l.shared l.connections
    some ⟨done.2, done.1⟩

def Loop.start (b : Bridge) : Loop := ⟨[], ⟨∅, b⟩⟩

structure Loop.Inv (l : Loop) : Prop where
  distinct : (l.connections.map (·.connId)).Nodup
  tracks : ∀ c ∈ l.connections, c.isOpen = true → Tracks c (l.shared.entry c.connId)

instance (cs : ConnState) : Decidable cs.Routed :=
  decidable_of_iff
    (cs.streamId = cs.publisher.elim (cs.player.elim "" (·.streamId)) (·.streamId) ∧
      (∀ p ∈ cs.publisher, p.streamId ≠ "") ∧ ∀ p ∈ cs.player, p.streamId ≠ "")
    ⟨fun h => ⟨h.1, h.2.1, h.2.2⟩, fun h => ⟨h.streamId, h.publisher, h.player⟩⟩

instance (deletedNow : Finset String) (t : Turn) : Decidable (t.Kept deletedNow) :=
  decidable_of_iff
    (t.cs.Routed ∧
      (t.entry.publishing = true → t.holds .publish = true ∨ t.ended .publish = true) ∧
      (t.entry.playing = true → t.holds .play = true ∨ t.ended .play = true) ∧
      (t.conn.relayEnabled = true →
        t.sid = t.entry.streamId ∨ t.running .publish = true ∨ t.running .play = true) ∧
      (t.running .publish = true → t.entry.publishing = true →
        t.conn.relayKey ≠ t.entry.streamId → t.sid ≠ t.entry.streamId ∨ t.sid ∈ deletedNow) ∧
      (t.conn.currentStream = none → t.conn.relayEnabled = true → t.sid ∉ deletedNow))
    ⟨fun h => ⟨h.1, h.2.1, h.2.2.1, h.2.2.2.1, h.2.2.2.2.1, h.2.2.2.2.2⟩,
      fun h => ⟨h.routed, h.publishing, h.playing, h.moved, h.cleared, h.paused⟩⟩

/-- A pass finds every open connection kept, or about to be closed. -/
def Loop.keeps (l : Loop) : LoopEvent → Bool
  | .pass p => l.connections.all fun c =>
    !c.isOpen || decide (c.connId ∈ l.shared.bridge.pendingForceClose) ||
      decide ((l.shared.turn c).Kept p.deletedNow)
  | _ => true

section Runs

variable {l l' : Loop}

theorem visitable_of_keeps (h : l.Inv) (hkeeps : l.keeps (.pass p)) :
    ∀ c ∈ l.connections, c.isOpen → Visitable p.deletedNow l.shared c := by
  intro c hc hopen
  have hc' := all_eq_true.1 hkeeps c hc
  rw [hopen, Bool.not_true, Bool.false_or, Bool.or_eq_true, decide_eq_true_eq, decide_eq_true_eq] at hc'
  exact ⟨h.tracks c hc hopen, hc'⟩

theorem inv_step {e : LoopEvent} (h : l.Inv) (hkeeps : l.keeps e) (hstep : l.step e = some l') :
    l'.Inv := by
  cases e with
  | accept conn =>
    unfold Loop.step at hstep
    dsimp only at hstep
    split_ifs at hstep with hold
    cases hstep
    rw [not_or] at hold
    refine ⟨?_, fun c hc hopen => ?_⟩
    · rw [map_append, nodup_append]
      refine ⟨h.distinct, nodup_singleton _, ?_⟩
      intro id hid new hnew heq
      cases mem_singleton.1 hnew
      have heq : id = conn := heq
      exact hold.1 (heq ▸ hid)
    · rcases mem_append.1 hc with hc | hc
      · exact h.tracks c hc hopen
      · cases mem_singleton.1 hc
        have hentry : l.shared.entry conn = {} := by
          rw [Shared.entry, AList.lookup_eq_none.2 hold.2]
          rfl
        show Tracks _ (l.shared.entry conn)
        rw [hentry]
        exact ⟨.inl rfl, fun henabled => by cases henabled⟩
  | library conn change =>
    cases hstep
    have hid (c : Conn) : (if c.connId = conn then c.change change else c).connId = c.connId := by
      split <;> rfl
    refine ⟨?_, fun c hc hopen => ?_⟩
    · have hmap : (l.connections.map fun c => if c.connId = conn then c.change change else c).map
          (·.connId) = l.connections.map (·.connId) := by
        rw [map_map]
        exact map_congr_left fun c _ => hid c
      dsimp only
      rw [hmap]
      exact h.distinct
    · obtain ⟨c, hold, rfl⟩ := mem_map.1 hc
      rw [hid c]
      dsimp only at hopen ⊢
      split_ifs at hopen ⊢ with hconn
      · have hopen' : c.isOpen = true := (Bool.and_eq_true_iff.1 hopen).1
        have htracks := h.tracks c hold hopen'
        exact ⟨htracks.key, fun henabled => htracks.relay (Bool.and_eq_true_iff.1 henabled).1⟩
      · exact h.tracks c hold hopen
  | reap conn =>
    cases hstep
    refine ⟨h.distinct.sublist (filter_sublist.map _), fun c hc hopen => ?_⟩
    exact h.tracks c (mem_filter.1 hc).1 hopen
  | forget conn =>
    unfold Loop.step at hstep
    dsimp only at hstep
    split_ifs at hstep with hlive
    cases hstep
    refine ⟨h.distinct, fun c hc hopen => ?_⟩
    have hne : c.connId ≠ conn := by
      intro heq
      exact hlive (any_eq_true.2 ⟨c, hc, by rw [hopen, heq]; simp⟩)
    have hentry : (⟨l.shared.tracked.erase conn, l.shared.bridge⟩ : Shared).entry c.connId =
        l.shared.entry c.connId := by
      rw [Shared.entry, AList.lookup_erase_ne hne]
      rfl
    show Tracks c ((⟨l.shared.tracked.erase conn, l.shared.bridge⟩ : Shared).entry c.connId)
    rw [hentry]
    exact h.tracks c hc hopen
  | bridge b =>
    cases hstep
    exact ⟨h.distinct, h.tracks⟩
  | pass p =>
    cases hstep
    refine ⟨?_, fun c hc hopen => ?_⟩
    · show ((process p l.shared l.connections).2.map (·.connId)).Nodup
      rw [connIds_process]
      exact h.distinct
    · exact (process_held h.distinct (visitable_of_keeps h hkeeps) hc hopen).2

/-- **Relay on held routes only**: after every pass of a run whose passes all find the open
connections kept. -/
theorem relay_on_held_routes (b : Bridge) (es : List LoopEvent) (l l' : Loop) (p : Pass)
    (hok : along Loop.step Loop.keeps es (.start b) = true)
    (h : replay Loop.step (.start b) es = some l) (hkeeps : l.keeps (.pass p) = true)
    (hpass : l.step (.pass p) = some l') (c : Conn) (hc : c ∈ l'.connections)
    (hopen : c.isOpen = true) :
    Held p.deletedNow c (l'.shared.entry c.connId) l'.shared.bridge := by
  have hstart : (Loop.start b).Inv := ⟨nodup_nil, fun c hc => by cases hc⟩
  have hinv : l.Inv := replay_inv_along (P := Loop.Inv)
    (fun _ _ _ hl hk hstep => inv_step hl hk hstep) hstart hok h
  cases hpass
  exact (process_held hinv.distinct (visitable_of_keeps hinv hkeeps) hc hopen).1

end Runs

/-- The bridge once connection 7 is authorized to publish `a`. -/
def publishingBridge : Bridge :=
  (Bridge.start ownedStreams .standalone).call (fun _ => { sessionId := some "pa" })
    (Bridge.tryAuthorizePublish 7 "live" "pub_a_00000000000000000000000000")

/-- A pass in which the release of a role whose stream is deleted may fail. -/
def drainPass (deletedNow : Finset String) (fault : Bool) : Pass where
  deletedNow := deletedNow
  revokedNow := ∅
  idleTimeout := 30
  visits := fun _ =>
    { now := 0
      teardown := fun _ _ => {}
      drain := fun _ _ => { faults := ⟨false, false, fault⟩ }
      close := none }

def publishSteps : List LoopEvent :=
  [.accept 7, .bridge publishingBridge,
    .library 7 ⟨true, some ⟨true, false⟩, false, false, false, true⟩]

theorem relay_on_held_routes_publish :
    ∃ l l', replay Loop.step (.start (.start ownedStreams .standalone)) publishSteps = some l ∧
      l.step (.pass (drainPass {"b"} false)) = some l' ∧
      ∃ c ∈ l'.connections, c.isOpen = true ∧ c.relayEnabled = true ∧ c.relayKey = "a" ∧
        Held {"b"} c (l'.shared.entry c.connId) l'.shared.bridge := by
  have hok : along Loop.step Loop.keeps publishSteps
      (.start (.start ownedStreams .standalone)) = true := by decide +kernel
  have hrun : (replay Loop.step (.start (.start ownedStreams .standalone)) publishSteps).map
      (fun l => (l.keeps (.pass (drainPass {"b"} false)),
        (l.step (.pass (drainPass {"b"} false))).map (·.connections))) =
      some (true, some [⟨7, true, some ⟨true, false⟩, false, false, false, "a", true⟩]) := by
    decide +kernel
  obtain ⟨l, hl, heq⟩ := Option.map_eq_some_iff.1 hrun
  simp only [Prod.mk.injEq] at heq
  obtain ⟨hkeeps, hstep⟩ := heq
  obtain ⟨l', hl', hconns⟩ := Option.map_eq_some_iff.1 hstep
  have hmem : ⟨7, true, some ⟨true, false⟩, false, false, false, "a", true⟩ ∈ l'.connections := by
    rw [hconns]
    exact mem_singleton_self _
  refine ⟨l, l', hl, hl', _, hmem, rfl, rfl, rfl, ?_⟩
  exact relay_on_held_routes _ publishSteps l l' _ hok hl hkeeps hl' _ hmem rfl

/-- The deletion of `a` is marked, its publisher cannot be released, and the mark is taken back. -/
def takenBackSteps : List LoopEvent :=
  publishSteps ++
    [LoopEvent.pass (drainPass ∅ false), .pass (drainPass {"a"} true), .pass (drainPass ∅ false)]

theorem relay_resumed_without_route :
    ∃ l, replay Loop.step (.start (.start ownedStreams .standalone)) takenBackSteps = some l ∧
      ∃ c ∈ l.connections, c.isOpen = true ∧ c.relayEnabled = true ∧ c.relayKey = "" ∧
        l.shared.bridge.streamIdForConn c.connId = "a" ∧
        ¬ Held ∅ c (l.shared.entry c.connId) l.shared.bridge := by
  have hrun : (replay Loop.step (.start (.start ownedStreams .standalone)) takenBackSteps).map
      (fun l => (l.connections, l.shared.bridge.streamIdForConn 7)) =
      some ([⟨7, true, some ⟨true, false⟩, false, false, false, "", true⟩], "a") := by decide +kernel
  obtain ⟨l, hl, heq⟩ := Option.map_eq_some_iff.1 hrun
  simp only [Prod.mk.injEq] at heq
  obtain ⟨hconns, hsid⟩ := heq
  refine ⟨l, hl, _, by rw [hconns]; exact mem_singleton_self _, rfl, rfl, rfl, hsid, ?_⟩
  intro hheld
  exact (hheld.route rfl).1 rfl

end RtmpServer.Poll
