import RtmpServer.Media.FrameFanout

/-!
# The init cache is sent again

A connection that lost a codec header asks for the init cache. A call of the export task takes the
requests of both connections to a peer and marks again what it did not serve, which is a fact about
the paths of the call (`followed_call`).
-/

namespace RtmpServer

open List Lib.Program Lib.Replay Option

/-! ### The request of a connection -/

namespace MediaConn

variable {cfg : LiveQueueConfig} (c : MediaConn cfg) (key : StreamKey)

theorem needsReinit_push (msg : MediaMessage) (now : Nat) (h : c.needsReinit key) :
    (c.push msg now).2.needsReinit key = true :=
  (c.announced.pushing c.queue.ok.booked (c.queue.push_steps msg now) key).kept h

theorem needsReinit_pop (now : Nat) : (c.pop now).needsReinit key = c.needsReinit key :=
  (c.queue.queue.popAt_steps cfg now).sameFlags.needs key

theorem needsReinit_onConnectionReset (now : Nat) :
    (c.onConnectionReset now).needsReinit key = c.needsReinit key :=
  (c.queue.queue.sameFlags_onConnectionReset now).needs key

theorem takeReinit_answer : (c.takeReinit key).1 = c.needsReinit key :=
  (c.announced.takeReinit key).1

theorem needsReinit_takeReinit (j : StreamKey) :
    (c.takeReinit j).2.needsReinit key = (decide (key ≠ j) && c.needsReinit key) :=
  (c.announced.takeReinit j).2.2 key

theorem needsReinit_markReinit (j : StreamKey) :
    (c.markReinit j).needsReinit key = (c.needsReinit key || decide (key = j)) :=
  (c.announced.markReinit j).2 key

end MediaConn

namespace FanoutHub

variable {cfg : LiveQueueConfig} {classify : FrameClassifier} {h : FanoutHub cfg} {a : FanoutAct}
variable {c : MediaConnId} {key : StreamKey} {now : Nat}

def Pending (h : FanoutHub cfg) (c : MediaConnId) (key : StreamKey) : Prop :=
  (h.conns c).needsReinit key = true

theorem Pending.setConn {c' : MediaConnId} {conn : MediaConn cfg} (hp : h.Pending c key)
    (hconn : c = c' → (h.conns c).needsReinit key → conn.needsReinit key) :
    (h.setConn c' conn).Pending c key := by
  by_cases hc : c = c'
  · subst hc
    simpa [Pending, FanoutHub.setConn] using hconn rfl hp
  · simpa [Pending, FanoutHub.setConn, hc] using hp

/-- A request ends when it is taken, and with its connection. -/
theorem Pending.exec (hp : h.Pending c key) (hclose : a ≠ .closeQueue c)
    (htake : (⟨a, (exec classify a now h).2⟩ : Performed _ FanoutAct.Answer) ≠
      ⟨.takeReinit c key, true⟩) :
    (exec classify a now h).1.Pending c key := by
  cases a with
  | takeReinit c' j =>
    refine hp.setConn fun hc hneeds => ?_
    subst hc
    rw [MediaConn.needsReinit_takeReinit, hneeds, Bool.and_true, decide_eq_true_eq]
    rintro rfl
    refine htake (congrArg (Sigma.mk _) ?_)
    exact ((h.conns c).takeReinit_answer key).trans hneeds
  | push c' msg =>
    refine hp.setConn fun hc hneeds => ?_
    subst hc
    exact (h.conns c).needsReinit_push key msg now hneeds
  | markReinit c' j =>
    refine hp.setConn fun hc hneeds => ?_
    subst hc
    simp [MediaConn.needsReinit_markReinit, hneeds]
  | pop c' =>
    refine hp.setConn fun hc hneeds => ?_
    subst hc
    rw [MediaConn.needsReinit_pop, hneeds]
  | onConnectionReset c' =>
    refine hp.setConn fun hc hneeds => ?_
    subst hc
    rw [MediaConn.needsReinit_onConnectionReset, hneeds]
  | setClosed c' =>
    refine hp.setConn fun hc hneeds => ?_
    subst hc
    exact hneeds
  | closeQueue c' =>
    refine hp.setConn fun hc _ => ?_
    subst hc
    exact absurd rfl hclose
  | _ => exact hp

theorem pending_markReinit :
    (exec classify (.markReinit c key) now h).1.Pending c key := by
  simp [Pending, FanoutHub.exec, setConn, MediaConn.needsReinit_markReinit]

/-! ### The init cache of the stream -/

theorem mem_cache_stage {frame : MeshFrame} (hknown : knownFrameType frame.frameType) :
    key ∈ (exec classify (.stage frame) now h).1.staging.cache ↔
      key = (frame.app, frame.stream) ∨ key ∈ h.staging.cache := by
  simp [FanoutHub.exec, Staging.stage, InitCacheStore.updateFromFrame, hknown, AList.mem_insert]

theorem mem_cache_exec (hkey : key ∈ h.staging.cache) (ha : a ≠ .evictInitCache key.2) :
    key ∈ (exec classify a now h).1.staging.cache := by
  cases a with
  | stage frame =>
    cases hknown : knownFrameType frame.frameType with
    | true => exact (mem_cache_stage hknown).2 (.inr hkey)
    | false => simpa [FanoutHub.exec, Staging.stage, InitCacheStore.updateFromFrame, hknown] using hkey
  | evictInitCache stream =>
    have hne : key.2 ≠ stream := fun heq => ha (by rw [heq])
    rw [← AList.lookup_isSome] at hkey ⊢
    simpa [FanoutHub.exec, InitCacheStore.lookup_removeStream, hne] using hkey
  | _ => exact hkey

end FanoutHub

def MediaMessage.isInitCacheOf (key : StreamKey) : MediaMessage → Bool
  | .initCache app stream _ _ _ _ _ => (app, stream) = key
  | _ => false

theorem initCacheMessage_of_mem {cache : InitCacheStore} {key : StreamKey} (h : key ∈ cache) :
    ∃ init, initCacheMessage cache key = some init ∧ init.isInitCacheOf key = true := by
  obtain ⟨e, he⟩ := isSome_iff_exists.1 (AList.lookup_isSome.2 h)
  exact ⟨_, by rw [initCacheMessage, he]; rfl, by simp [MediaMessage.isInitCacheOf]⟩

/-! ### The actions of a call -/

namespace FanoutAct

def sends : FanoutAct → Bool
  | .isClosed _ | .initCacheMessage _ | .push _ _ | .markReinit _ _ => true
  | _ => false

def ofCall : FanoutAct → Bool
  | .stage _ | .inboundSinks | .peers | .subscribers _ | .takeReinit _ _ => true
  | a => a.sends

theorem ofCall_of_sends {a : FanoutAct} (h : a.sends) : a.ofCall = true := by
  cases a <;> first | rfl | cases h

end FanoutAct

namespace Fanout

variable {key k : StreamKey} {msg init : MediaMessage} {c : MediaConnId}
variable {conn sink peer : Option MediaConnId} {tr tr' : FanoutTrace} {M : MediaMessage → Prop}
  {Q : FanoutTrace → Prop}

theorem only_filterOpen : (filterOpen conn).Only (·.sends = true) := by
  cases conn with
  | none => exact .ret _
  | some c => exact .act rfl fun _ => .ret _

theorem only_markReinit : (markReinit key conn).Only (·.sends = true) := by
  cases conn with
  | none => exact .ret _
  | some c => exact .act rfl fun _ => .ret _

theorem only_trySend : (trySend msg c).Only (·.sends = true) := by
  refine .act rfl fun closed => ?_
  cases closed with
  | true => exact .ret _
  | false => exact .act rfl fun _ => .ret _

theorem only_sendTo (init : Option MediaMessage) : (sendTo init msg conn).Only (·.sends = true) := by
  cases conn with
  | none => exact .ret _
  | some c =>
    refine Prog.Only.bind (p := sendInit c init) ?_ fun ready => ?_
    · cases init with
      | none => exact .ret _
      | some i => exact only_trySend
    · cases ready with
      | true => exact only_trySend
      | false => exact .ret _

theorem only_deliver (sinkReinit peerReinit : Bool) :
    (deliver key msg sink peer sinkReinit peerReinit).Only (·.sends = true) := by
  rw [deliver]
  refine Prog.Only.bind ?_ fun init => Prog.Only.bind (only_sendTo init) fun onSink => ?_
  · cases sinkReinit || peerReinit with
    | true => exact .act rfl fun _ => .ret _
    | false => exact .ret _
  · split
    · split
      · exact only_markReinit
      · exact .ret _
    · refine Prog.Only.bind (only_sendTo init) fun onPeer => ?_
      split
      · split
        · exact only_markReinit
        · exact .ret _
      · split
        · exact only_markReinit.bind fun _ => only_markReinit
        · exact .ret _

theorem only_takeReinit : (takeReinit key conn).Only (·.ofCall = true) := by
  cases conn with
  | none => exact .ret _
  | some c => exact .act rfl fun _ => .ret _

theorem only_toPeer (hint : DeliveryHint) :
    (toPeer key hint msg sink peer).Only (·.ofCall = true) := by
  have hsends := fun a => @FanoutAct.ofCall_of_sends a
  refine (only_filterOpen.mono hsends).bind fun sink => ?_
  refine (only_filterOpen.mono hsends).bind fun peer => ?_
  split
  · refine only_takeReinit.bind fun sinkReinit => ?_
    exact only_takeReinit.bind fun peerReinit => (only_deliver _ _).mono hsends
  · exact (only_deliver _ _).mono hsends

theorem only_toSubscribers (frame : MeshFrame) (msg : MediaMessage) :
    (toSubscribers frame msg).Only (·.ofCall = true) := by
  refine .act rfl fun sinks => .act rfl fun peers => .act rfl fun subscribers => ?_
  induction subscribers with
  | nil => exact .ret _
  | cons p ps ih => exact (only_toPeer frame.hint).bind fun _ => ih

theorem only_exportFrames (frames : List MeshFrame) :
    (exportFrames frames).Only (·.ofCall = true) := by
  induction frames with
  | nil => exact .ret _
  | cons frame frames ih =>
    refine Prog.Only.bind (p := fanoutLocalFrame frame) ?_ fun _ => ih
    exact .act rfl fun ts => only_toSubscribers frame (frameMessage frame ts)

/-! ### The paths of a call -/

/-- The init cache is queued on the connection, and then the frame. -/
def served (c : MediaConnId) (init msg : MediaMessage) : FanoutTrace :=
  [⟨.isClosed c, false⟩, ⟨.push c init, true⟩, ⟨.isClosed c, false⟩, ⟨.push c msg, true⟩]

theorem path_trySend (h : Path (trySend msg c) tr (.ret true)) :
    tr = [⟨.isClosed c, false⟩, ⟨.push c msg, true⟩] := by
  obtain ⟨closed, tr', rfl, hnext⟩ := path_act_iff.1 h
  cases closed with
  | true =>
    obtain ⟨-, hret⟩ := path_ret_iff.1 hnext
    cases hret
  | false =>
    obtain rfl := path_perform_iff.1 hnext
    rfl

theorem path_sendTo (h : Path (sendTo (some init) msg conn) tr (.ret true)) :
    ∃ c, conn = some c ∧ tr = served c init msg := by
  cases conn with
  | none =>
    obtain ⟨-, hret⟩ := path_ret_iff.1 h
    cases hret
  | some c =>
    obtain ⟨tr₁, ready, tr₂, rfl, h₁, h₂⟩ := path_bind_iff.1 h
    cases ready with
    | true => exact ⟨c, rfl, by rw [path_trySend h₁, path_trySend h₂]; rfl⟩
    | false =>
      obtain ⟨-, hret⟩ := path_ret_iff.1 h₂
      cases hret

theorem path_markReinit (h : Path (markReinit key (some c)) tr (.ret ())) :
    tr = [⟨.markReinit c key, ()⟩] :=
  path_perform_iff.1 h

/-- An `InitCache` of the stream is queued on the connection, and one of the messages `M` behind it. -/
def Resent (M : MediaMessage → Prop) (c : MediaConnId) (key : StreamKey) (tr : FanoutTrace) : Prop :=
  ∃ init msg, init.isInitCacheOf key = true ∧ M msg ∧ served c init msg <:+: tr

def Answered (M : MediaMessage → Prop) (c : MediaConnId) (key : StreamKey) (tr : FanoutTrace) : Prop :=
  ⟨.markReinit c key, ()⟩ ∈ tr ∨ Resent M c key tr

theorem Answered.infix (h : Answered M c key tr) (htr : tr <:+: tr') : Answered M c key tr' := by
  rcases h with h | ⟨init, msg, hinit, hmsg, h⟩
  · exact .inl (htr.subset h)
  · exact .inr ⟨init, msg, hinit, hmsg, h.trans htr⟩

theorem Answered.left (tr' : FanoutTrace) (h : Answered M c key tr) : Answered M c key (tr ++ tr') :=
  h.infix (prefix_append _ _).isInfix

theorem Answered.right (tr' : FanoutTrace) (h : Answered M c key tr) : Answered M c key (tr' ++ tr) :=
  h.infix (suffix_append _ _).isInfix

theorem answered_markReinit (h : Path (markReinit key conn) tr (.ret ())) :
    ∀ c ∈ conn, Answered M c key tr := by
  rintro c rfl
  exact .inl (by simp [path_markReinit h])

/-- What `init_cache_message` answers about the stream, where it is cached. -/
def Cached (key : StreamKey) (e : Performed FanoutAct FanoutAct.Answer) : Prop :=
  ∀ r, e = ⟨.initCacheMessage key, r⟩ → ∃ init, r = some init ∧ init.isInitCacheOf key = true

theorem answered_deliver {sinkReinit peerReinit : Bool} (hmsg : M msg)
    (h : Path (deliver key msg sink peer sinkReinit peerReinit) tr (.ret ()))
    (hcached : ∀ e ∈ tr, Cached key e) :
    (sinkReinit → ∀ c ∈ sink, Answered M c key tr) ∧
      (peerReinit → ∀ c ∈ peer, Answered M c key tr) := by
  by_cases hreinit : (sinkReinit || peerReinit) = true
  case neg => simp_all
  simp only [deliver, hreinit, initFor, Prog.perform_bind] at h
  obtain ⟨r, tr₁, rfl, hsend⟩ := path_act_iff.1 h
  obtain ⟨init, rfl, hinit⟩ := hcached _ mem_cons_self r rfl
  have hserved : ∀ {conn x}, Path (sendTo (some init) msg conn) x (.ret true) →
      ∀ c ∈ conn, Answered M c key x := by
    rintro conn x hx c rfl
    obtain ⟨c, hc, rfl⟩ := path_sendTo hx
    cases hc
    exact .inr ⟨init, msg, hinit, hmsg, infix_rfl⟩
  suffices hrest : (sinkReinit = true → ∀ c ∈ sink, Answered M c key tr₁) ∧
      (peerReinit = true → ∀ c ∈ peer, Answered M c key tr₁) from
    ⟨fun hs c hc => (hrest.1 hs c hc).right [_], fun hp c hc => (hrest.2 hp c hc).right [_]⟩
  obtain ⟨x, onSink, y, rfl, hx, hy⟩ := path_bind_iff.1 hsend
  cases onSink with
  | true =>
    refine ⟨fun _ c hc => (hserved hx c hc).left y, fun hp c hc => .right x ?_⟩
    simp only [if_true, hp, isSome_some, Bool.and_true] at hy
    exact answered_markReinit hy c hc
  | false =>
    obtain ⟨z, onPeer, u, rfl, hz, hu⟩ := path_bind_iff.1 hy
    cases onPeer with
    | true =>
      refine ⟨fun hs c hc => .right x (.right z ?_), fun _ c hc => .right x (.left u (hserved hz c hc))⟩
      simp only [if_true, hs, isSome_some, Bool.and_true] at hu
      exact answered_markReinit hu c hc
    | false =>
      obtain ⟨u₁, _, u₂, rfl, hsink, hpeer⟩ := path_bind_iff.1 hu
      exact ⟨fun _ c hc => .right x (.right z (.left u₂ (answered_markReinit hsink c hc))),
        fun _ c hc => .right x (.right z (.right u₁ (answered_markReinit hpeer c hc)))⟩

/-! ### What is taken is answered -/

theorem followed_takeReinit {r : Bool} (h : Path (takeReinit key conn) tr (.ret r))
    (hrest : Followed (· = ⟨.takeReinit c k, true⟩) Q tr')
    (hQ : r → key = k → conn = some c → Q tr') :
    Followed (· = ⟨.takeReinit c k, true⟩) Q (tr ++ tr') := by
  cases conn with
  | none =>
    obtain ⟨rfl, -⟩ := path_ret_iff.1 h
    exact hrest
  | some c' =>
    obtain rfl := path_perform_iff.1 h
    refine ⟨fun he => ?_, hrest⟩
    cases he
    exact hQ rfl rfl rfl

theorem followed_of_sends {p p' : Fanout α} (hp : p.Only (·.sends = true)) (h : Path p tr p') :
    Followed (· = ⟨.takeReinit c k, true⟩) Q tr := by
  refine .of_not fun e he htake => ?_
  have hsends := (h.only hp).1 e he
  subst htake
  cases hsends

theorem followed_toPeer {hint : DeliveryHint} (hmsg : key = k → M msg)
    (h : Path (toPeer key hint msg sink peer) tr (.ret ()))
    (hcached : ∀ e ∈ tr, key = k → Cached k e) :
    Followed (· = ⟨.takeReinit c k, true⟩) (Answered M c k) tr := by
  have hmono : ∀ l l', Answered M c k l → Answered M c k (l ++ l') := fun l l' h => h.left l'
  obtain ⟨tr₁, sink', rest, rfl, h₁, hrest⟩ := path_bind_iff.1 h
  obtain ⟨tr₂, peer', rest, rfl, h₂, hrest⟩ := path_bind_iff.1 hrest
  refine .append hmono (followed_of_sends only_filterOpen h₁) ?_
  refine .append hmono (followed_of_sends only_filterOpen h₂) ?_
  split at hrest
  · obtain ⟨tr₃, sinkReinit, rest, rfl, h₃, hrest⟩ := path_bind_iff.1 hrest
    obtain ⟨tr₄, peerReinit, rest, rfl, h₄, hrest⟩ := path_bind_iff.1 hrest
    have hans : key = k → _ := fun hkey => answered_deliver (hmsg hkey) hrest
      fun e he => hkey ▸ hcached e (by simp [he]) hkey
    refine followed_takeReinit h₃ (followed_takeReinit h₄ ?_ ?_) ?_
    · exact followed_of_sends (only_deliver _ _) hrest
    · rintro hp rfl hc
      exact (hans rfl).2 hp c hc
    · rintro hs rfl hc
      exact ((hans rfl).1 hs c hc).right tr₄
  · exact followed_of_sends (only_deliver _ _) hrest

/-! ### Calls among other tasks -/

section Runs

variable {cfg : LiveQueueConfig} {classify : FrameClassifier} {s t : FanoutHub cfg}
variable {es : List (AmidEvent FanoutAct Nat)}

/-- The stream is cached once its frame is staged, so `init_cache_message` has an answer. -/
theorem cached_of_run {p : Fanout Unit} {p' : Fanout Unit} (hp : p.Only (·.ofCall = true))
    (hothers : ∀ a w, .other a w ∈ es → a ≠ .evictInitCache k.2) (hk : k ∈ s.staging.cache)
    (h : replay (amidStep (FanoutHub.exec classify)) (p, s) es = some (p', t)) :
    ∀ e ∈ trace (FanoutHub.exec classify) es (p, s), Cached k e := by
  refine answers_of_run h hp (fun s => k ∈ s.staging.cache) (Cached k) hk
    (fun a w s ha hk => FanoutHub.mem_cache_exec hk (hothers a w ha)) ?_
  intro a w s ha hk
  refine ⟨FanoutHub.mem_cache_exec hk ?_, fun r he => ?_⟩
  · rintro rfl
    cases ha
  · obtain ⟨rfl, hr⟩ := Sigma.mk.inj_iff.1 he
    obtain rfl := eq_of_heq hr
    exact initCacheMessage_of_mem hk

theorem mem_cache_of_staged {frame : MeshFrame} {ts : UInt32}
    (hknown : knownFrameType frame.frameType)
    (hothers : ∀ a w, .other a w ∈ es → a ≠ .evictInitCache frame.stream)
    (h : replay (amidStep (FanoutHub.exec classify)) (Prog.perform (FanoutAct.stage frame), s) es =
      some (.ret ts, t)) :
    (frame.app, frame.stream) ∈ t.staging.cache := by
  have htr := path_perform_iff.1 (path_of_run h)
  have hstaged : ∃ e ∈ trace (FanoutHub.exec classify) es (Prog.perform (.stage frame), s),
      e.1 = .stage frame :=
    ⟨_, by rw [htr]; exact mem_singleton_self _, rfl⟩
  have hcases := cleared_of_run h (fun s => (frame.app, frame.stream) ∈ s.staging.cache)
    (fun e => e.1 = .evictInitCache frame.stream) (fun e => e.1 = .stage frame)
    (fun a w s ha hk => FanoutHub.mem_cache_exec hk (hothers a w ha))
    (fun a w s ha hk => FanoutHub.mem_cache_exec hk ha) ?_ (.inr hstaged)
  · refine hcases.resolve_right ?_
    rintro ⟨tr₁, e, tr₂, he, hclears, -⟩
    have hmem : e ∈ [(⟨.stage frame, ts⟩ : Performed FanoutAct FanoutAct.Answer)] := by
      rw [← htr, he]
      simp
    obtain rfl := mem_singleton.1 hmem
    cases hclears
  · rintro a w s rfl
    exact (FanoutHub.mem_cache_stage hknown).2 (.inl rfl)

/-- What a call takes it marks again or serves, whatever happens in between. -/
theorem followed_call {frame : MeshFrame} (hknown : knownFrameType frame.frameType)
    (hM : (frame.app, frame.stream) = k → ∀ ts, M (frameMessage frame ts))
    (hothers : ∀ a w, .other a w ∈ es → a ≠ .evictInitCache k.2)
    (h : replay (amidStep (FanoutHub.exec classify)) (fanoutLocalFrame frame, s) es =
      some (.ret (), t)) :
    Followed (· = ⟨.takeReinit c k, true⟩) (Answered M c k)
      (trace (FanoutHub.exec classify) es (fanoutLocalFrame frame, s)) := by
  obtain ⟨es₁, es₂, ts, s₁, rfl, h₁, h₂, htr⟩ :=
    run_bind_split (p := Prog.perform (FanoutAct.stage frame)) h
  have hcached : ∀ e ∈ trace (FanoutHub.exec classify) es₂
      (toSubscribers frame (frameMessage frame ts), s₁),
      (frame.app, frame.stream) = k → Cached k e := by
    rintro e he rfl
    refine cached_of_run (only_toSubscribers frame _)
      (fun a w ha => hothers a w (mem_append_right _ ha)) ?_ h₂ e he
    exact mem_cache_of_staged hknown (fun a w ha => hothers a w (mem_append_left _ ha)) h₁
  refine htr ▸ ?_
  rw [path_perform_iff.1 (path_of_run h₁)]
  have hpath := path_of_run h₂
  generalize trace (FanoutHub.exec classify) es₂ _ = tr at hpath hcached
  obtain ⟨sinks, tr₁, rfl, hpath₁⟩ := path_act_iff.1 hpath
  obtain ⟨peers, tr₂, rfl, hpath₂⟩ := path_act_iff.1 hpath₁
  obtain ⟨subscribers, tr₃, rfl, hpath₃⟩ := path_act_iff.1 hpath₂
  have hloop := followed_forM (P := (· = ⟨.takeReinit c k, true⟩)) (Q := Answered M c k)
    (fun e => (frame.app, frame.stream) = k → Cached k e) (fun l l' h => h.left l')
    (fun peer tr hpeer hgood => followed_toPeer (fun hk => hM hk ts) hpeer hgood) hpath₃
    fun e he => hcached e (by simp [he])
  have hhead : Followed (· = ⟨.takeReinit c k, true⟩) (Answered M c k)
      [⟨.stage frame, ts⟩, ⟨.inboundSinks, sinks⟩, ⟨.peers, peers⟩, ⟨.subscribers _, subscribers⟩] :=
    .of_not (by simp)
  have hall := hhead.append (fun l l' h => h.left l') hloop
  exact hall

theorem followed_exportFrames {frames : List MeshFrame}
    (hknown : ∀ frame ∈ frames, knownFrameType frame.frameType)
    (hM : ∀ frame ∈ frames, (frame.app, frame.stream) = k → ∀ ts, M (frameMessage frame ts))
    (hothers : ∀ a w, .other a w ∈ es → a ≠ .evictInitCache k.2)
    (h : replay (amidStep (FanoutHub.exec classify)) (exportFrames frames, s) es = some (.ret (), t)) :
    Followed (· = ⟨.takeReinit c k, true⟩) (Answered M c k)
      (trace (FanoutHub.exec classify) es (exportFrames frames, s)) := by
  induction frames generalizing s es with
  | nil =>
    obtain ⟨htr, -⟩ := path_ret_iff.1 (path_of_run h)
    exact htr ▸ trivial
  | cons frame frames ih =>
    rw [forall_mem_cons] at hknown hM
    obtain ⟨es₁, es₂, _, s₁, rfl, h₁, h₂, htr⟩ := run_bind_split (p := fanoutLocalFrame frame) h
    refine htr ▸ .append (fun l l' h => h.left l') ?_ ?_
    · exact followed_call hknown.1 hM.1 (fun a w ha => hothers a w (mem_append_left _ ha)) h₁
    · exact ih hknown.2 hM.2 (fun a w ha => hothers a w (mem_append_right _ ha)) h₂

end Runs

end Fanout

open Fanout

/-- What other tasks may do: anything but take the request, close the connection's queue or evict the
stream from the init cache. -/
def FanoutAct.spares (c : MediaConnId) (key : StreamKey) : FanoutAct → Bool
  | .takeReinit c' key' => (c', key') ≠ (c, key)
  | .closeQueue c' => c' ≠ c
  | .evictInitCache stream => stream ≠ key.2
  | _ => true

/-- **A request for the init cache is cleared by sending it.** A pending request of a connection is
still pending at the end, or since then a call for the stream has queued an `InitCache` of the
stream and right behind it its frame on the connection. -/
theorem reinit_cleared_by_resend (cfg : LiveQueueConfig) (classify : FrameClassifier)
    (frames : List MeshFrame) (hknown : ∀ frame ∈ frames, knownFrameType frame.frameType = true)
    (c : MediaConnId) (key : StreamKey) (s s₁ t : FanoutHub cfg) (p : Fanout Unit)
    (es₁ es₂ : List (AmidEvent FanoutAct Nat))
    (hothers : ∀ a w, .other a w ∈ es₁ ++ es₂ → a.spares c key = true)
    (h₁ : replay (amidStep (FanoutHub.exec classify)) (exportFrames frames, s) es₁ = some (p, s₁))
    (h₂ : replay (amidStep (FanoutHub.exec classify)) (p, s₁) es₂ = some (.ret (), t))
    (hpending : s₁.Pending c key) :
    t.Pending c key ∨
      Resent (fun msg => ∃ frame ∈ frames, (frame.app, frame.stream) = key ∧
          ∃ timelineTs, msg = frameMessage frame timelineTs)
        c key (trace (FanoutHub.exec classify) es₂ (p, s₁)) := by
  have hspares : ∀ a w, .other a w ∈ es₂ → a.spares c key = true :=
    fun a w ha => hothers a w (mem_append_right _ ha)
  have hpaths := followed_exportFrames (c := c) (k := key) hknown
    (M := fun msg => ∃ frame ∈ frames, (frame.app, frame.stream) = key ∧
      ∃ timelineTs, msg = frameMessage frame timelineTs)
    (fun frame hframe hkey ts => ⟨frame, hframe, hkey, ts, rfl⟩)
    (fun a w ha => ?_) (replay_append_eq_some.2 ⟨_, h₁, h₂⟩)
  · rw [trace_append h₁] at hpaths
    refine (cleared_of_run h₂ (·.Pending c key)
      (fun e => e = ⟨.takeReinit c key, true⟩ ∨ e.1 = .closeQueue c)
      (· = ⟨.markReinit c key, ()⟩) (fun a w s ha hp => hp.exec ?_ ?_)
      (fun a w s ha hp => hp.exec (fun heq => ha (.inr heq)) fun heq => ha (.inl heq)) ?_
      (.inl hpending)).imp_right ?_
    · rintro rfl
      simpa [FanoutAct.spares] using hspares _ w ha
    · intro heq
      obtain ⟨rfl, -⟩ := Sigma.mk.inj_iff.1 heq
      simpa [FanoutAct.spares] using hspares _ w ha
    · intro a w s heq
      obtain ⟨rfl, -⟩ := Sigma.mk.inj_iff.1 heq
      exact FanoutHub.pending_markReinit
    · rintro ⟨tr₁, e, tr₂, htr, he | he, hnone⟩
      · rw [htr, ← append_assoc] at hpaths
        rcases hpaths.after he with hmark | hresent
        · exact absurd rfl (hnone _ hmark)
        · obtain ⟨init, msg, hinit, hmsg, hserved⟩ := hresent
          refine ⟨init, msg, hinit, hmsg, hserved.trans ?_⟩
          rw [htr]
          exact ((suffix_cons e tr₂).trans (suffix_append _ _)).isInfix
      · -- the calls close nothing
        have honly := ((path_of_run h₁).only (only_exportFrames frames)).2
        have hcall := ((path_of_run h₂).only honly).1 e (by rw [htr]; simp)
        rw [he] at hcall
        cases hcall
  · rintro rfl
    simpa [FanoutAct.spares] using hothers _ w ha

/-- Node 2 subscribes to a stream over its inbound sink, which asks for the init cache. -/
def waitingHub : FanoutHub ⟨10, 1000, 3000, 10000⟩ where
  staging := ⟨∅, ∅⟩
  subs := SubscriptionTable.add ∅ 2 ("live", "cam")
  inboundSinks := AList.insert 2 0 ∅
  peers := ∅
  conns := fun _ => MediaConn.new.markReinit ("live", "cam")

def restartFrame : MeshFrame := ⟨"live", "cam", 1, 1, 0, .resyncPoint, [1, 7]⟩

/-- One call, during which the writer of the sink pops. -/
def resendEvents : List (AmidEvent FanoutAct Nat) :=
  List.replicate 6 (.own 0) ++ .other (.pop (.sink 0)) 1 :: List.replicate 5 (.own 2)

theorem reinit_cleared_by_resend_sink :
    ∃ t, replay (amidStep (FanoutHub.exec fun _ _ => .videoKeyframe))
          (exportFrames [restartFrame], waitingHub) resendEvents = some (.ret (), t) ∧
      waitingHub.Pending (.sink 0) ("live", "cam") ∧
      (t.Pending (.sink 0) ("live", "cam") ∨
        Resent (fun msg => ∃ frame ∈ [restartFrame], (frame.app, frame.stream) = ("live", "cam") ∧
            ∃ timelineTs, msg = frameMessage frame timelineTs)
          (.sink 0) ("live", "cam")
          (trace (FanoutHub.exec fun _ _ => .videoKeyframe) resendEvents
            (exportFrames [restartFrame], waitingHub))) := by
  have hreturns : ((replay (amidStep (FanoutHub.exec fun _ _ => .videoKeyframe))
      (exportFrames [restartFrame], waitingHub) resendEvents).any
        fun x => x.1.result? = some ()) = true := by
    decide +kernel
  obtain ⟨⟨p, t⟩, hrun, hret⟩ := (any_eq_true _ _).1 hreturns
  obtain rfl := Prog.eq_ret_of_result? (of_decide_eq_true hret)
  have hpending : waitingHub.Pending (.sink 0) ("live", "cam") := by
    simp [FanoutHub.Pending, waitingHub, MediaConn.needsReinit_markReinit]
  refine ⟨t, hrun, hpending, reinit_cleared_by_resend _ _ _ ?_ _ _ _ _ t _ [] resendEvents ?_ rfl hrun
    hpending⟩
  · simp [restartFrame, knownFrameType]
  · intro a w ha
    simp only [resendEvents, nil_append, mem_append, mem_cons, mem_replicate,
      AmidEvent.other.injEq, reduceCtorEq, and_false, false_or, or_false] at ha
    rw [ha.1]
    rfl

end RtmpServer
