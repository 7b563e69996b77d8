import RtmpServer.Lib.Replay
import RtmpServer.Media.FrameQueues
import RtmpServer.Media.InitCache

/-!
# The init cache of a running publisher

A publisher sends its sequence headers once. `fanout_local_frame` stages them under the epoch
recorded for the connection at that time; in the middle of the session `retag_stream_epoch` may
replace that epoch, and `sync_ownership_from_db` evicts what is staged for a stream whose owner
changed.
-/

namespace RtmpServer

open Option Lib.Replay

/-! ### Staging an exported frame -/

structure Staging where
  timelines : AList fun _ : StreamKey => TimelineRemapper
  cache : InitCacheStore

/-- The head of `fanout_local_frame`, with the `timeline_ts` of the frame. -/
def Staging.stage (classify : FrameClassifier) (s : Staging) (frame : MeshFrame) :
    Staging × UInt32 :=
  let key := (frame.app, frame.stream)
  let (remap, timelineTs) := ((s.timelines.lookup key).getD .new).map frame.epoch frame.timestamp
  ({ timelines := s.timelines.insert key remap
     cache := s.cache.updateFromFrame classify key
      ⟨frame.epoch, frame.frameType, timelineTs, frame.payload⟩ }, timelineTs)

def initCacheMessage (cache : InitCacheStore) (key : StreamKey) : Option MediaMessage :=
  (cache.lookup key).map fun e =>
    .initCache key.1 key.2 e.epoch e.metadata e.avcHeader e.aacHeader e.keyframe

/-! ### A session -/

/-- A publisher's connection and what its node keeps of the streams. `evicting` are the streams
`sync_ownership_from_db` has yet to evict. -/
structure PublisherSession where
  epoch : UInt64
  owners : OwnershipTracker
  evicting : List String
  staging : Staging

inductive PublisherEvent where
  /-- A frame of the publisher goes out, stamped with the epoch of the connection. -/
  | frame (frameType : UInt8) (timestamp : UInt32) (hint : DeliveryHint) (payload : List UInt8)
  /-- `acquire_stream_owner` returned and records the owner. -/
  | acquired (epoch : UInt64)
  /-- `retag_stream_epoch`, to a larger epoch. -/
  | retag (epoch : UInt64)
  /-- `sync_from` with the rows read. -/
  | sync (owners : List StreamOwner)
  /-- `evict_init_cache_for_stream` for one of the streams `sync_from` reported. -/
  | evict (stream : String)
  deriving DecidableEq

namespace PublisherSession

def exported (s : PublisherSession) (key : StreamKey) (frameType : UInt8) (timestamp : UInt32)
    (hint : DeliveryHint) (payload : List UInt8) : MeshFrame :=
  ⟨key.1, key.2, s.epoch, frameType, timestamp, hint, payload⟩

def step (classify : FrameClassifier) (node : UInt64) (key : StreamKey) (s : PublisherSession) :
    PublisherEvent → Option PublisherSession
  | .frame frameType timestamp hint payload =>
    some { s with
      staging := (s.staging.stage classify (s.exported key frameType timestamp hint payload)).1 }
  | .acquired epoch => some { s with owners := s.owners.set key.2 node epoch }
  | .retag epoch => if s.epoch < epoch then some { s with epoch } else none
  | .sync owners =>
    some { s with
      owners := (s.owners.syncFrom owners).1
      evicting := s.evicting ++ (s.owners.syncFrom owners).2.map Prod.fst }
  | .evict stream =>
    if stream ∈ s.evicting then
      some { s with
        evicting := s.evicting.erase stream
        staging := { s.staging with cache := s.staging.cache.removeStream stream } }
    else none

end PublisherSession

/-! ### The last headers -/

inductive HeaderKind where
  | video
  | audio
  deriving DecidableEq

def HeaderKind.frameKind : HeaderKind → CacheFrameKind
  | .video => .videoSequenceHeader
  | .audio => .audioSequenceHeader

def InitCacheEntry.header (e : InitCacheEntry) : HeaderKind → Option (List UInt8)
  | .video => e.avcHeader
  | .audio => e.aacHeader

def MediaMessage.header (kind : HeaderKind) : MediaMessage → Option (List UInt8)
  | .initCache _ _ _ _ avcHeader aacHeader _ =>
    match kind with
    | .video => avcHeader
    | .audio => aacHeader
  | _ => none

namespace PublisherEvent

def header (classify : FrameClassifier) (kind : HeaderKind) : PublisherEvent → Option (List UInt8)
  | .frame frameType _ _ payload =>
    if knownFrameType frameType ∧ classify frameType payload = kind.frameKind then some payload
    else none
  | _ => none

def staged : PublisherEvent → Bool
  | .frame frameType _ _ _ => knownFrameType frameType
  | _ => false

def retags : PublisherEvent → Bool
  | .retag _ => true
  | _ => false

def evicts (stream : String) : PublisherEvent → Bool
  | .evict sid => sid = stream
  | _ => false

end PublisherEvent

/-- The last header of a kind and the events since, after one more event. -/
def nextSince (classify : FrameClassifier) (kind : HeaderKind)
    (last : Option (List UInt8 × List PublisherEvent)) (ev : PublisherEvent) :
    Option (List UInt8 × List PublisherEvent) :=
  match ev.header classify kind with
  | some payload => some (payload, [])
  | none => last.map fun l => (l.1, l.2 ++ [ev])

def sinceHeader (classify : FrameClassifier) (kind : HeaderKind) (events : List PublisherEvent) :
    Option (List UInt8 × List PublisherEvent) :=
  events.foldl (nextSince classify kind) none

def lastSent (classify : FrameClassifier) (kind : HeaderKind) (events : List PublisherEvent) :
    Option (List UInt8) :=
  (sinceHeader classify kind events).map Prod.fst

/-- The stream was evicted, or a frame went out after a retag. -/
def forgets (stream : String) (events : List PublisherEvent) : Bool :=
  events.any (·.evicts stream) || (events.dropWhile (!·.retags)).any (·.staged)

theorem forgets_snoc (stream : String) (events : List PublisherEvent) (ev : PublisherEvent) :
    forgets stream (events ++ [ev]) =
      (forgets stream events || ev.evicts stream || (ev.staged && events.any (·.retags))) := by
  have hdrop : ((events ++ [ev]).dropWhile (!·.retags)).any (·.staged) =
      ((events.dropWhile (!·.retags)).any (·.staged) || (ev.staged && events.any (·.retags))) := by
    induction events with
    | nil => cases ev <;> simp [PublisherEvent.retags, PublisherEvent.staged]
    | cons e events ih =>
      cases hretags : e.retags with
      | false => simpa [hretags] using ih
      | true => simp [hretags, Bool.or_assoc]
  rw [forgets, hdrop, forgets, List.any_append, List.any_cons, List.any_nil, Bool.or_false]
  ac_rfl

/-! ### What a session recalls -/

/-- What is stored for the stream, by the last header of the kind and the events since. -/
structure Recalls (stream : String) (kind : HeaderKind) (entry : Option InitCacheEntry)
    (epoch : UInt64) (p : List UInt8) (after : List PublisherEvent) : Prop where
  forgot : forgets stream after = true → ∀ e, entry = some e → e.header kind = none
  held : forgets stream after = false → ∃ e, entry = some e ∧ e.header kind = some p ∧
    if after.any (·.retags) then e.epoch < epoch else e.epoch = epoch

namespace InitCacheEntry

variable {classify : FrameClassifier} {kind : HeaderKind} {f : CacheFrame}
variable {e : InitCacheEntry}

theorem update_of_le (classify : FrameClassifier) (h : e.epoch ≤ f.epoch) :
    e.epoch = f.epoch ∧ e.update classify f = e.stage classify f ∨
      e.epoch < f.epoch ∧ e.update classify f = (empty f.epoch).stage classify f := by
  rcases e.update_cases classify f with ⟨hlt, -⟩ | ⟨hepoch, heq⟩ | hnew
  · exact absurd hlt (UInt64.not_lt.2 h)
  · exact .inl ⟨hepoch.symm, heq⟩
  · exact .inr hnew

theorem epoch_update_of_le (classify : FrameClassifier) (h : e.epoch ≤ f.epoch) :
    (e.update classify f).epoch = f.epoch := by
  rcases update_of_le classify h with ⟨hepoch, heq⟩ | ⟨-, heq⟩
  · rw [heq, epoch_stage, hepoch]
  · rw [heq, epoch_stage, empty]

theorem epoch_getD_le {entry : Option InitCacheEntry} {epoch : UInt64}
    (h : ∀ e, entry = some e → e.epoch ≤ epoch) : (entry.getD (.empty 0)).epoch ≤ epoch := by
  cases entry with
  | none => exact UInt64.zero_le
  | some e => exact h e rfl

theorem header_empty (epoch : UInt64) (kind : HeaderKind) : (empty epoch).header kind = none := by
  cases kind <;> rfl

theorem header_stage_self (e : InitCacheEntry) (h : classify.kind f = kind.frameKind) :
    (e.stage classify f).header kind = some f.payload := by
  cases kind <;> simp only [stage, h, HeaderKind.frameKind, header]

theorem header_stage_other (e : InitCacheEntry) (h : classify.kind f ≠ kind.frameKind) :
    (e.stage classify f).header kind = e.header kind := by
  cases hkind : classify.kind f with
  | videoSequenceHeader =>
    cases kind with
    | video => exact absurd hkind h
    | audio => simp only [stage, hkind, header]
  | audioSequenceHeader =>
    cases kind with
    | video => simp only [stage, hkind, header]
    | audio => exact absurd hkind h
  | videoKeyframe => cases kind <;> simp only [stage, hkind, header]
  | liveOnly =>
    simp only [stage, hkind]
    split
    · cases kind <;> rfl
    · rfl

end InitCacheEntry

namespace Recalls

variable {stream : String} {kind : HeaderKind} {entry : Option InitCacheEntry} {epoch : UInt64}
variable {p : List UInt8} {after : List PublisherEvent} {ev : PublisherEvent}
variable {classify : FrameClassifier} {f : CacheFrame}

theorem quiet (h : Recalls stream kind entry epoch p after) (hstaged : ev.staged = false)
    (hretags : ev.retags = false) (hevicts : ev.evicts stream = false) :
    Recalls stream kind entry epoch p (after ++ [ev]) := by
  have hforgets : forgets stream (after ++ [ev]) = forgets stream after := by
    rw [forgets_snoc, hstaged, hevicts]
    simp
  have hany : (after ++ [ev]).any (·.retags) = after.any (·.retags) := by simp [hretags]
  refine ⟨fun hf => h.forgot (hforgets ▸ hf), fun hf => ?_⟩
  rw [hany]
  exact h.held (hforgets ▸ hf)

theorem retag (h : Recalls stream kind entry epoch p after) {epoch' : UInt64}
    (hnewest : ∀ e, entry = some e → e.epoch ≤ epoch) (hlt : epoch < epoch') :
    Recalls stream kind entry epoch' p (after ++ [.retag epoch']) := by
  have hforgets : forgets stream (after ++ [.retag epoch']) = forgets stream after := by
    simp [forgets_snoc, PublisherEvent.evicts, PublisherEvent.staged]
  refine ⟨fun hf => h.forgot (hforgets ▸ hf), fun hf => ?_⟩
  obtain ⟨e, he, hheader, -⟩ := h.held (hforgets ▸ hf)
  refine ⟨e, he, hheader, ?_⟩
  rw [if_pos (by simp [PublisherEvent.retags])]
  exact UInt64.lt_of_le_of_lt (hnewest e he) hlt

theorem sent {e : InitCacheEntry} (hnewest : e.epoch ≤ f.epoch)
    (hkind : classify.kind f = kind.frameKind) :
    Recalls stream kind (some (e.update classify f)) f.epoch f.payload [] := by
  refine ⟨fun hf => absurd hf (by simp [forgets]), fun _ => ⟨_, rfl, ?_⟩⟩
  rcases InitCacheEntry.update_of_le classify hnewest with ⟨hepoch, heq⟩ | ⟨-, heq⟩
  · rw [heq, InitCacheEntry.header_stage_self _ hkind]
    exact ⟨rfl, by simpa using hepoch⟩
  · rw [heq, InitCacheEntry.header_stage_self _ hkind]
    exact ⟨rfl, by simp [InitCacheEntry.empty]⟩

theorem staged (h : Recalls stream kind entry f.epoch p after)
    (hnewest : ∀ e, entry = some e → e.epoch ≤ f.epoch) (hkind : classify.kind f ≠ kind.frameKind)
    (hstaged : ev.staged) (hretags : ev.retags = false) (hevicts : ev.evicts stream = false) :
    Recalls stream kind (some ((entry.getD (.empty 0)).update classify f)) f.epoch p
      (after ++ [ev]) := by
  have hforgets : forgets stream (after ++ [ev]) =
      (forgets stream after || after.any (·.retags)) := by
    rw [forgets_snoc, hstaged, hevicts]
    simp
  have hle := InitCacheEntry.epoch_getD_le hnewest
  refine ⟨fun hf e he => ?_, fun hf => ?_⟩
  · obtain rfl := some.inj he
    rcases InitCacheEntry.update_of_le classify hle with ⟨hepoch, heq⟩ | ⟨-, heq⟩
    · rw [heq, InitCacheEntry.header_stage_other _ hkind]
      cases hforgot : forgets stream after with
      | true =>
        cases entry with
        | none => exact InitCacheEntry.header_empty 0 kind
        | some e => exact h.forgot hforgot e rfl
      | false =>
        -- a frame behind a retag does not find the epoch of the entry
        obtain ⟨e, rfl, -, hlt⟩ := h.held hforgot
        rw [hforgets, hforgot, Bool.false_or] at hf
        rw [if_pos hf] at hlt
        exact absurd hepoch (UInt64.ne_of_lt hlt)
    · rw [heq, InitCacheEntry.header_stage_other _ hkind, InitCacheEntry.header_empty]
  · rw [hforgets, Bool.or_eq_false_iff] at hf
    obtain ⟨e, rfl, hheader, hepoch⟩ := h.held hf.1
    rw [if_neg (by simp [hf.2])] at hepoch
    rcases InitCacheEntry.update_of_le classify hle with ⟨-, heq⟩ | ⟨hlt, -⟩
    · refine ⟨_, rfl, ?_, ?_⟩
      · rw [heq, InitCacheEntry.header_stage_other _ hkind]
        exact hheader
      · rw [heq, if_neg (by simpa [hretags] using hf.2)]
        simpa using hepoch
    · exact absurd hepoch (UInt64.ne_of_lt hlt)

theorem evict (hevicts : ev.evicts stream) : Recalls stream kind none epoch p (after ++ [ev]) := by
  refine ⟨fun _ e he => absurd he (some_ne_none e).symm, fun hf => ?_⟩
  rw [forgets_snoc, hevicts] at hf
  simp at hf

end Recalls

/-! ### Runs -/

structure SessionInv (classify : FrameClassifier) (key : StreamKey) (kind : HeaderKind)
    (s : PublisherSession) (events : List PublisherEvent) : Prop where
  newest : ∀ e, s.staging.cache.lookup key = some e → e.epoch ≤ s.epoch
  recalls : ∀ p after, sinceHeader classify kind events = some (p, after) →
    Recalls key.2 kind (s.staging.cache.lookup key) s.epoch p after

theorem sinceHeader_snoc (classify : FrameClassifier) (kind : HeaderKind)
    (events : List PublisherEvent) (ev : PublisherEvent) :
    sinceHeader classify kind (events ++ [ev]) =
      nextSince classify kind (sinceHeader classify kind events) ev := by
  simp [sinceHeader]

theorem recalls_snoc {classify : FrameClassifier} {kind : HeaderKind} {events : List PublisherEvent}
    {ev : PublisherEvent} (hev : ev.header classify kind = none)
    {P : List UInt8 → List PublisherEvent → Prop}
    (h : ∀ p after, sinceHeader classify kind events = some (p, after) → P p (after ++ [ev]))
    (p : List UInt8) (after : List PublisherEvent)
    (hsince : sinceHeader classify kind (events ++ [ev]) = some (p, after)) : P p after := by
  rw [sinceHeader_snoc, nextSince, hev, map_eq_some_iff] at hsince
  obtain ⟨l, hl, heq⟩ := hsince
  obtain ⟨rfl, rfl⟩ := Prod.mk.inj heq
  exact h l.1 l.2 hl

section Runs

variable {classify : FrameClassifier} {node : UInt64} {key : StreamKey} {kind : HeaderKind}
variable {s s' : PublisherSession} {events : List PublisherEvent}
variable {payload : List UInt8} {hint : DeliveryHint} {timestamp : UInt32} {frameType : UInt8}

theorem Staging.lookup_stage (classify : FrameClassifier) (s : Staging) (frame : MeshFrame) :
    knownFrameType frame.frameType ∧
        (∃ f : CacheFrame, f.epoch = frame.epoch ∧ f.payload = frame.payload ∧
          classify.kind f = classify frame.frameType frame.payload ∧
          (s.stage classify frame).1.cache.lookup (frame.app, frame.stream) =
            some (((s.cache.lookup (frame.app, frame.stream)).getD (.empty 0)).update classify f)) ∨
      knownFrameType frame.frameType = false ∧ (s.stage classify frame).1.cache = s.cache := by
  cases hknown : knownFrameType frame.frameType with
  | false => exact .inr ⟨rfl, by simp [Staging.stage, InitCacheStore.updateFromFrame, hknown]⟩
  | true =>
    refine .inl ⟨rfl, ⟨_, _, (s.stage classify frame).2, _⟩, rfl, rfl, rfl, ?_⟩
    simp only [Staging.stage, InitCacheStore.updateFromFrame, hknown, if_true]
    exact AList.lookup_insert _

theorem PublisherSession.step_frame
    (h : s.step classify node key (.frame frameType timestamp hint payload) = some s') :
    s'.epoch = s.epoch ∧
      (knownFrameType frameType ∧
          (∃ f : CacheFrame, f.epoch = s.epoch ∧ f.payload = payload ∧
            classify.kind f = classify frameType payload ∧
            s'.staging.cache.lookup key =
              some (((s.staging.cache.lookup key).getD (.empty 0)).update classify f)) ∨
        knownFrameType frameType = false ∧ s'.staging.cache = s.staging.cache) := by
  obtain rfl := some.inj h
  exact ⟨rfl, Staging.lookup_stage classify s.staging (s.exported key frameType timestamp hint payload)⟩

theorem SessionInv.frame (h : SessionInv classify key kind s events)
    (hstep : s.step classify node key (.frame frameType timestamp hint payload) = some s') :
    SessionInv classify key kind s' (events ++ [.frame frameType timestamp hint payload]) := by
  obtain ⟨hsame, ⟨hknown, f, hepoch, rfl, hkind, hentry⟩ | ⟨hknown, hcache⟩⟩ :=
    PublisherSession.step_frame hstep
  · rw [← hepoch] at hsame
    have hnewest : ∀ e, s.staging.cache.lookup key = some e → e.epoch ≤ f.epoch := hepoch ▸ h.newest
    have hle := InitCacheEntry.epoch_getD_le hnewest
    constructor
    · rw [hentry, hsame]
      intro e he
      obtain rfl := some.inj he
      exact UInt64.le_of_eq (InitCacheEntry.epoch_update_of_le classify hle)
    · rw [hentry, hsame]
      by_cases hsent : classify frameType f.payload = kind.frameKind
      · intro p after hsince
        rw [sinceHeader_snoc, nextSince, PublisherEvent.header, if_pos ⟨hknown, hsent⟩] at hsince
        obtain ⟨rfl, rfl⟩ := Prod.mk.inj (some.inj hsince)
        exact .sent hle (hkind.trans hsent)
      · have hheader : (PublisherEvent.frame frameType timestamp hint f.payload).header classify kind =
            none := if_neg fun hc => hsent hc.2
        refine recalls_snoc hheader fun p after hlast => ?_
        have hrecalls := h.recalls p after hlast
        rw [← hepoch] at hrecalls
        exact hrecalls.staged hnewest (hkind ▸ hsent) hknown rfl rfl
  · have hheader : (PublisherEvent.frame frameType timestamp hint payload).header classify kind =
        none := if_neg fun hc => Bool.noConfusion (hknown.symm.trans hc.1)
    constructor
    · rw [hcache, hsame]
      exact h.newest
    · rw [hcache, hsame]
      exact recalls_snoc hheader fun p after hlast => (h.recalls p after hlast).quiet hknown rfl rfl

theorem SessionInv.step (h : SessionInv classify key kind s events) {ev : PublisherEvent}
    (hstep : s.step classify node key ev = some s') :
    SessionInv classify key kind s' (events ++ [ev]) := by
  cases ev with
  | frame frameType timestamp hint payload => exact h.frame hstep
  | acquired epoch =>
    obtain rfl := some.inj hstep
    exact ⟨h.newest, recalls_snoc rfl fun p after hlast => (h.recalls p after hlast).quiet rfl rfl rfl⟩
  | sync owners =>
    obtain rfl := some.inj hstep
    exact ⟨h.newest, recalls_snoc rfl fun p after hlast => (h.recalls p after hlast).quiet rfl rfl rfl⟩
  | retag epoch =>
    simp only [PublisherSession.step, ite_none_right_eq_some, some.injEq] at hstep
    obtain ⟨hlt, rfl⟩ := hstep
    refine ⟨fun e he => UInt64.le_trans (h.newest e he) (UInt64.le_of_lt hlt), ?_⟩
    exact recalls_snoc rfl fun p after hlast => (h.recalls p after hlast).retag h.newest hlt
  | evict stream =>
    simp only [PublisherSession.step, ite_none_right_eq_some, some.injEq] at hstep
    obtain ⟨-, rfl⟩ := hstep
    have hlookup := InitCacheStore.lookup_removeStream s.staging.cache stream key
    by_cases hstream : key.2 = stream
    · rw [if_pos hstream] at hlookup
      refine ⟨fun e he => ?_, recalls_snoc rfl fun p after _ => ?_⟩
      · rw [hlookup] at he
        cases he
      · rw [hlookup]
        exact .evict (decide_eq_true hstream.symm)
    · rw [if_neg hstream] at hlookup
      refine ⟨fun e he => h.newest e (hlookup ▸ he), recalls_snoc rfl fun p after hlast => ?_⟩
      rw [hlookup]
      exact (h.recalls p after hlast).quiet rfl rfl (decide_eq_false (Ne.symm hstream))

theorem SessionInv.run (kind : HeaderKind)
    (hstart : ∀ e, s.staging.cache.lookup key = some e → e.epoch ≤ s.epoch)
    (hrun : replay (PublisherSession.step classify node key) s events = some s') :
    SessionInv classify key kind s' events := by
  induction events using List.reverseRecOn generalizing s' with
  | nil =>
    cases hrun
    exact ⟨hstart, fun p after hsince => by cases hsince⟩
  | append_singleton events ev ih =>
    obtain ⟨s₁, hbefore, hlast⟩ := replay_append_eq_some.1 hrun
    obtain ⟨s₂, hstep, hnil⟩ := replay_cons_eq_some.1 hlast
    cases hnil
    exact (ih hbefore).step hstep

end Runs

theorem header_initCacheMessage (cache : InitCacheStore) (key : StreamKey) (kind : HeaderKind) :
    (initCacheMessage cache key).bind (·.header kind) = (cache.lookup key).bind (·.header kind) := by
  rw [initCacheMessage]
  cases cache.lookup key with
  | none => rfl
  | some e => cases kind <;> rfl

/-- **Completeness of the init cache.** The `InitCache` message has the most recent header of a kind
iff the session did not forget it since. -/
theorem init_cache_complete_iff (classify : FrameClassifier) (node : UInt64) (key : StreamKey)
    (s t : PublisherSession) (events : List PublisherEvent)
    (hstart : ∀ e, s.staging.cache.lookup key = some e → e.epoch ≤ s.epoch)
    (hrun : replay (PublisherSession.step classify node key) s events = some t) (kind : HeaderKind) :
    (∀ p, lastSent classify kind events = some p →
      (initCacheMessage t.staging.cache key).bind (·.header kind) = some p) ↔
      ∀ p after, sinceHeader classify kind events = some (p, after) →
        forgets key.2 after = false := by
  have hinv := SessionInv.run kind hstart hrun
  rw [header_initCacheMessage]
  constructor
  · intro hcomplete p after hsince
    have hheader := hcomplete p (by rw [lastSent, hsince]; rfl)
    by_contra hforgets
    obtain ⟨e, he, hp⟩ := bind_eq_some_iff.1 hheader
    have hnone := (hinv.recalls p after hsince).forgot (Bool.eq_true_of_not_eq_false hforgets) e he
    rw [hnone] at hp
    cases hp
  · intro hkept p hp
    obtain ⟨l, hsince, rfl⟩ := map_eq_some_iff.1 hp
    obtain ⟨e, he, hheader, -⟩ :=
      (hinv.recalls l.1 l.2 hsince).held (hkept l.1 l.2 hsince)
    exact bind_eq_some_iff.2 ⟨e, he, hheader⟩

/-- A session at epoch 5, with nothing staged. -/
def sessionStart : PublisherSession := ⟨5, ⟨∅, 6⟩, [], ⟨∅, ∅⟩⟩

/-- A retag alone keeps the header. -/
theorem init_cache_complete_retagged :
    ∃ t, replay (PublisherSession.step flvTags 1 ("live", "s")) sessionStart
        [.frame 1 0 .critical avcSeq, .frame 1 40 .droppable avcInter, .retag 9] = some t ∧
      ∀ p, lastSent flvTags .video
          [.frame 1 0 .critical avcSeq, .frame 1 40 .droppable avcInter, .retag 9] = some p →
        (initCacheMessage t.staging.cache ("live", "s")).bind (·.header .video) = some p := by
  refine ⟨_, rfl,
    (init_cache_complete_iff flvTags 1 ("live", "s") sessionStart _ _ ?_ rfl .video).2 ?_⟩
  · intro e he
    cases he
  · intro p after hsince
    cases hsince
    decide

/-- The header is gone with the first frame under the new epoch, and with the eviction that a sync
of the ownership brings. -/
theorem retag_forgets_headers :
    lastSent flvTags .video
        [.frame 1 0 .critical avcSeq, .acquired 9, .retag 9, .frame 1 40 .droppable avcInter] =
          some avcSeq ∧
      (replay (PublisherSession.step flvTags 1 ("live", "s")) sessionStart
          [.frame 1 0 .critical avcSeq, .acquired 9, .retag 9, .frame 1 40 .droppable avcInter]).map
        (fun t => (initCacheMessage t.staging.cache ("live", "s")).bind (·.header .video)) =
          some none ∧
      (replay (PublisherSession.step flvTags 1 ("live", "s")) sessionStart
          [.frame 1 0 .critical avcSeq, .retag 9, .sync [⟨"s", 1, 9, 0⟩], .evict "s"]).map
        (fun t => (initCacheMessage t.staging.cache ("live", "s")).bind (·.header .video)) =
          some none := by
  decide

end RtmpServer
