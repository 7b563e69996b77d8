import Mathlib.Algebra.Order.BigOperators.Group.List
import RtmpServer.Lib.Replay
import RtmpServer.Media.Subscriptions

/-!
# Inbound media sessions and the fan-out references

`run_inbound_media_session` is one task per accepted connection. It registers the peer's
`Subscribe`s in the hub's `SubscriptionTable`, which is keyed by the peer and not by the session,
and keeps its own tally `conn_subs` so that its teardown releases what it registered. Beside it
`disconnect_peer` drops all references of a peer at once.

`MediaSession.step` is one section of a session's task between two points where others run;
`FanOut.step` runs the sessions of all peers and the two sections of `disconnect_peer` in any order.
-/

namespace RtmpServer

open Option Lib.Refcount Lib.Replay
open List hiding all_eq_true count getElem?_eq_some_iff map_map

/-! ### One session -/

/-- What the gate says about an inbound `Subscribe`. -/
inductive InboundSubscribeVerdict where
  | allow
  | deny
  | transient
  deriving DecidableEq, Repr

def subscribeEnqueueAttempts : Nat := 3

/-- `registering`: in the registration loop, `init` when there is an init cache to enqueue first.
`failed`: the loop is over without success. `keeping`: the sink was found open, so the registration
is kept all the same. `leaving`: releases its tally. -/
inductive SessionPhase where
  | reading
  | judging (key : StreamKey)
  | registering (key : StreamKey) (init : Bool) (attempt : Nat)
  | failed (key : StreamKey)
  | keeping (key : StreamKey)
  | leaving
  deriving DecidableEq, Repr

/-- `closed` is the flag of the session's sink. `disconnected` is not in the source: a
`disconnect_peer` that found the session has run to its end. -/
structure MediaSession where
  peer : UInt64
  phase : SessionPhase
  connSubs : Counts StreamKey
  closed : Bool
  disconnected : Bool

/-- What a section of a session does to the subscription table. -/
inductive TableEdit where
  | none
  | add (key : StreamKey)
  | remove (key : StreamKey)
  deriving DecidableEq

/-- `sent` and `init` are what the sink's queue and the init cache happen to say. -/
inductive SessionOp where
  | sinkCloses
  | read (msg : MediaMessage)
  | verdict (v : InboundSubscribeVerdict) (init : Bool)
  | attempt (sent : Bool)
  | checkClosed
  | keep
  | leave
  | release (key : StreamKey)
  deriving DecidableEq

namespace MediaSession

def close (s : MediaSession) : MediaSession := { s with closed := true }

/-- `*conn_subs.entry(..).or_insert(0) += 1`, back in the read loop. -/
def register (s : MediaSession) (key : StreamKey) : MediaSession :=
  { s with phase := .reading, connSubs := incr s.connSubs key }

/-- Only an `Unsubscribe` that matches a `Subscribe` of this connection releases a reference; media,
init caches and the rest leave the references alone. -/
def receive (s : MediaSession) : MediaMessage → MediaSession × TableEdit
  | .subscribe app stream _ _ => ({ s with phase := .judging (app, stream) }, .none)
  | .unsubscribe app stream =>
    if 0 < count s.connSubs (app, stream) then
      ({ s with connSubs := decr s.connSubs (app, stream) }, .remove (app, stream))
    else (s, .none)
  | _ => (s, .none)

def step (s : MediaSession) : SessionOp → Option (MediaSession × TableEdit)
  | .sinkCloses => some (s.close, .none)
  | .read msg =>
    match s.phase with
    | .reading => some (s.receive msg)
    | _ => none
  | .verdict v init =>
    match s.phase with
    | .judging key =>
      match v with
      | .allow => some ({ s with phase := .registering key init 0 }, .none)
      | .deny | .transient => some ({ s with phase := .reading }, .none)
    | _ => none
  | .attempt sent =>
    match s.phase with
    | .registering key init n =>
      -- the closure of `add_with`: the sink is open and the init cache, if any, was enqueued
      if !s.closed && (!init || sent) then some (s.register key, .add key)
      else if n < subscribeEnqueueAttempts then
        some ({ s with phase := .registering key init (n + 1) }, .none)
      else some ({ s with phase := .failed key }, .none)
    | _ => none
  | .checkClosed =>
    match s.phase with
    | .failed key => some ({ s with phase := if s.closed then .leaving else .keeping key }, .none)
    | _ => none
  | .keep =>
    match s.phase with
    | .keeping key => some (s.register key, .add key)
    | _ => none
  | .leave =>
    match s.phase with
    | .reading => some ({ s with phase := .leaving, closed := true }, .none)
    | _ => none
  | .release key =>
    match s.phase with
    | .leaving =>
      if 0 < count s.connSubs key then
        some ({ s with connSubs := decr s.connSubs key }, .remove key)
      else none
    | _ => none

end MediaSession

/-! ### The hub -/

/-- The owner side of the hub. A session is named by its position in `sessions`; `disconnecting` has
the calls of `disconnect_peer` that have yet to clear the table, with the number of sessions there
were. -/
structure FanOut where
  subs : SubscriptionTable
  inboundSinks : AList fun _ : UInt64 => Nat
  sessions : List MediaSession
  disconnecting : List (UInt64 × Nat)

inductive FanOutOp where
  | accept (peer : UInt64)
  | session (i : Nat) (op : SessionOp)
  | disconnect (peer : UInt64)
  | clear (peer : UInt64) (n : Nat)
  deriving DecidableEq

def SubscriptionTable.edit (t : SubscriptionTable) (peer : UInt64) : TableEdit → SubscriptionTable
  | .none => t
  | .add key => t.add peer key
  | .remove key => t.remove peer key

namespace FanOut

def start : FanOut := ⟨∅, ∅, [], []⟩

def closeSink (h : FanOut) (peer : UInt64) : List MediaSession :=
  match h.inboundSinks.lookup peer with
  | some i => h.sessions.modify i MediaSession.close
  | none => h.sessions

/-- The sinks once session `i` of `peer` has left: it takes out its own and no other. -/
def sinksAfter (h : FanOut) (i : Nat) (s : MediaSession) : AList fun _ : UInt64 => Nat :=
  if s.phase = .leaving ∧ h.inboundSinks.lookup s.peer = some i then h.inboundSinks.erase s.peer
  else h.inboundSinks

def markDisconnected (h : FanOut) (peer : UInt64) (n : Nat) : List MediaSession :=
  h.sessions.mapIdx fun i s =>
    if i < n ∧ s.peer = peer then { s with disconnected := true } else s

/-- A new session closes the sink of the one before it; `disconnect` and `clear` are the sections of
`disconnect_peer` that touch sinks and references. -/
def step (h : FanOut) : FanOutOp → Option FanOut
  | .accept peer => some { h with
      inboundSinks := h.inboundSinks.insert peer h.sessions.length
      sessions := h.closeSink peer ++ [⟨peer, .reading, ∅, false, false⟩] }
  | .session i op => do
    let s ← h.sessions[i]?
    let (s', edit) ← s.step op
    return { h with
      subs := h.subs.edit s.peer edit
      inboundSinks := h.sinksAfter i s'
      sessions := h.sessions.set i s' }
  | .disconnect peer => some { h with
      inboundSinks := h.inboundSinks.erase peer
      sessions := h.closeSink peer
      disconnecting := (peer, h.sessions.length) :: h.disconnecting }
  | .clear peer n =>
    if (peer, n) ∈ h.disconnecting then some { h with
      subs := h.subs.clearPeer peer
      sessions := h.markDisconnected peer n
      disconnecting := h.disconnecting.erase (peer, n) }
    else none

end FanOut

/-! ### The accounting -/

/-- A session that is torn down has released its tally, and one that was disconnected had its
references dropped with the peer's. -/
def MediaSession.holds (s : MediaSession) (peer : UInt64) (key : StreamKey) : Nat :=
  if s.peer = peer ∧ s.disconnected = false then count s.connSubs key else 0

namespace FanOut

def held (h : FanOut) (peer : UInt64) (key : StreamKey) : Nat :=
  (h.sessions.map fun s => s.holds peer key).sum

def Balanced (h : FanOut) : Prop :=
  ∀ peer key, count h.subs (peer, key) = h.held peer key

/-- `s` was not disconnected, no `disconnect_peer` of its peer is under way and no disconnected
session of its peer still has `key` to release. -/
def mayRegister (h : FanOut) (s : MediaSession) (key : StreamKey) : Bool :=
  !s.disconnected && h.disconnecting.all (fun d => d.1 != s.peer) &&
    h.sessions.all fun d =>
      !(d.peer == s.peer && d.disconnected) || count d.connSubs key == 0

def meets (h : FanOut) : FanOutOp → Bool
  | .session i op =>
    match h.sessions[i]? with
    | some s =>
      match s.step op with
      | some (_, .add key) => h.mayRegister s key
      | _ => true
    | none => true
  | _ => true

end FanOut

def TableEdit.tally (c : Counts StreamKey) : TableEdit → Counts StreamKey
  | .none => c
  | .add key => incr c key
  | .remove key => decr c key

theorem MediaSession.step_spec {s s' : MediaSession} {op : SessionOp} {edit : TableEdit}
    (h : s.step op = some (s', edit)) :
    s'.peer = s.peer ∧ s'.disconnected = s.disconnected ∧
      s'.connSubs = edit.tally s.connSubs ∧
      ∀ key, edit = .remove key → 0 < count s.connSubs key := by
  cases op with
  | sinkCloses =>
    cases h
    exact ⟨rfl, rfl, rfl, nofun⟩
  | read msg =>
    rw [step] at h
    split at h
    case h_2 => cases h
    case h_1 =>
      rw [some.injEq] at h
      unfold receive at h
      split at h
      case h_1 =>
        cases h
        exact ⟨rfl, rfl, rfl, nofun⟩
      case h_2 app stream =>
        by_cases hheld : 0 < count s.connSubs (app, stream)
        · rw [if_pos hheld] at h
          cases h
          refine ⟨rfl, rfl, rfl, fun key hkey => ?_⟩
          cases hkey
          exact hheld
        · rw [if_neg hheld] at h
          cases h
          exact ⟨rfl, rfl, rfl, nofun⟩
      case h_3 =>
        cases h
        exact ⟨rfl, rfl, rfl, nofun⟩
  | verdict v init =>
    rw [step] at h
    split at h
    case h_2 => cases h
    case h_1 =>
      cases v <;>
      · cases h
        exact ⟨rfl, rfl, rfl, nofun⟩
  | attempt sent =>
    rw [step] at h
    split at h
    case h_2 => cases h
    case h_1 =>
      split_ifs at h <;>
      · cases h
        exact ⟨rfl, rfl, rfl, nofun⟩
  | checkClosed | keep | leave =>
    rw [step] at h
    split at h
    case h_2 => cases h
    case h_1 =>
      cases h
      exact ⟨rfl, rfl, rfl, nofun⟩
  | release key =>
    rw [step] at h
    split at h
    case h_2 => cases h
    case h_1 =>
      by_cases hheld : 0 < count s.connSubs key
      · rw [if_pos hheld] at h
        cases h
        refine ⟨rfl, rfl, rfl, fun key hkey => ?_⟩
        cases hkey
        exact hheld
      · rw [if_neg hheld] at h
        cases h

def MediaSession.refs (s : MediaSession) : UInt64 × Bool × Counts StreamKey :=
  (s.peer, s.disconnected, s.connSubs)

namespace FanOut

/-- A key that a disconnected session still has to release is held by no other session of the peer,
and no session accepted during a `disconnect_peer` holds anything. -/
structure Inv (h : FanOut) : Prop where
  balanced : h.Balanced
  apart : ∀ d ∈ h.sessions, d.disconnected = true → ∀ key, 0 < count d.connSubs key →
    h.held d.peer key = 0
  quiet : ∀ peer n, (peer, n) ∈ h.disconnecting → ∀ i s, h.sessions[i]? = some s → n ≤ i →
    s.peer = peer → ∀ key, count s.connSubs key = 0

variable {h h' : FanOut}

theorem held_congr (hrefs : h'.sessions.map MediaSession.refs = h.sessions.map MediaSession.refs)
    (peer : UInt64) (key : StreamKey) : h'.held peer key = h.held peer key := by
  let f : UInt64 × Bool × Counts StreamKey → Nat := fun r =>
    if r.1 = peer ∧ r.2.1 = false then count r.2.2 key else 0
  have hheld : ∀ g : FanOut, g.held peer key = ((g.sessions.map MediaSession.refs).map f).sum :=
    fun g => by
      rw [List.map_map]
      rfl
  rw [hheld, hheld, hrefs]

theorem Inv.congr (hinv : h.Inv) (hsubs : h'.subs = h.subs)
    (hrefs : h'.sessions.map MediaSession.refs = h.sessions.map MediaSession.refs)
    (hdisc : h'.disconnecting = h.disconnecting) : h'.Inv := by
  have hget : ∀ (i : Nat) s', h'.sessions[i]? = some s' →
      ∃ s, h.sessions[i]? = some s ∧ s.refs = s'.refs := fun i s' hs' => by
    have hmap : (h'.sessions.map MediaSession.refs)[i]? = some s'.refs := by
      rw [getElem?_map, hs', map_some]
    rw [hrefs, getElem?_map, map_eq_some_iff] at hmap
    exact hmap
  refine ⟨fun peer key => ?_, fun d hd hdc key hkey => ?_, fun peer n hn i s' hs' hle hp key => ?_⟩
  · rw [hsubs, held_congr hrefs]
    exact hinv.balanced peer key
  · obtain ⟨i, hi⟩ := getElem?_of_mem hd
    obtain ⟨s, hs, heq⟩ := hget i d hi
    obtain ⟨hpeer, hdisc', hsubs'⟩ := Prod.mk.inj heq |>.imp id Prod.mk.inj
    rw [held_congr hrefs, ← hpeer]
    refine hinv.apart s (mem_of_getElem? hs) (hdisc'.trans hdc) key ?_
    rw [hsubs']
    exact hkey
  · obtain ⟨s, hs, heq⟩ := hget i s' hs'
    obtain ⟨hpeer, -, hsubs'⟩ := Prod.mk.inj heq |>.imp id Prod.mk.inj
    rw [← hsubs']
    exact hinv.quiet peer n (hdisc ▸ hn) i s hs hle (hpeer.trans hp) key

theorem closeSink_refs (h : FanOut) (peer : UInt64) :
    (h.closeSink peer).map MediaSession.refs = h.sessions.map MediaSession.refs := by
  unfold closeSink
  split
  case h_2 => rfl
  case h_1 i _ =>
    refine ext_getElem? fun j => ?_
    rw [getElem?_map, getElem?_map, getElem?_modify]
    cases h.sessions[j]? with
    | none => rfl
    | some s => by_cases hij : i = j <;> simp [hij, MediaSession.close, MediaSession.refs]

theorem Inv.accept (hinv : h.Inv) (peer : UInt64) :
    Inv { h with sessions := h.sessions ++ [⟨peer, .reading, ∅, false, false⟩] } := by
  have hheld : ∀ p key,
      held { h with sessions := h.sessions ++ [⟨peer, .reading, ∅, false, false⟩] } p key =
        h.held p key := fun p key => by
    simp [held, MediaSession.holds]
  refine ⟨fun p key => ?_, fun d hd hdc key hkey => ?_, fun p n hn i s hs hle hp key => ?_⟩
  · rw [hheld]
    exact hinv.balanced p key
  · rw [hheld]
    rcases mem_append.1 hd with hd | hd
    · exact hinv.apart d hd hdc key hkey
    · rw [mem_singleton.1 hd] at hdc
      cases hdc
  · rcases Nat.lt_or_ge i h.sessions.length with hi | hi
    · exact hinv.quiet p n hn i s (by rwa [getElem?_append_left hi] at hs) hle hp key
    · rw [getElem?_append_right hi] at hs
      rw [mem_singleton.1 (mem_of_getElem? hs)]
      exact count_empty key

theorem Inv.disconnect (hinv : h.Inv) (peer : UInt64) :
    Inv { h with disconnecting := (peer, h.sessions.length) :: h.disconnecting } := by
  refine ⟨hinv.balanced, hinv.apart, fun p n hn i s hs hle hp key => ?_⟩
  rcases mem_cons.1 hn with heq | hn
  · cases heq
    rw [getElem?_eq_none hle] at hs
    cases hs
  · exact hinv.quiet p n hn i s hs hle hp key

theorem getElem?_markDisconnected {peer : UInt64} {n i : Nat} {s' : MediaSession}
    (hs' : (h.markDisconnected peer n)[i]? = some s') :
    ∃ s, h.sessions[i]? = some s ∧
      s' = if i < n ∧ s.peer = peer then { s with disconnected := true } else s := by
  rw [markDisconnected, getElem?_mapIdx, map_eq_some_iff] at hs'
  obtain ⟨s, hs, heq⟩ := hs'
  exact ⟨s, hs, heq.symm⟩

theorem held_markDisconnected_ne {peer p : UInt64} (n : Nat) (key : StreamKey) (hp : p ≠ peer) :
    ((h.markDisconnected peer n).map fun s => s.holds p key).sum = h.held p key := by
  refine congrArg sum (ext_getElem? fun i => ?_)
  rw [getElem?_map, getElem?_map, markDisconnected, getElem?_mapIdx]
  cases h.sessions[i]? with
  | none => rfl
  | some s =>
    by_cases hi : i < n ∧ s.peer = peer
    · simp [hi, MediaSession.holds, Ne.symm hp]
    · rw [map_some, map_some, if_neg hi, map_some]

/-- The sessions from before the clearing are disconnected and those accepted meanwhile have not
registered. -/
theorem Inv.held_markDisconnected (hinv : h.Inv) {peer : UInt64} {n : Nat}
    (hn : (peer, n) ∈ h.disconnecting) (key : StreamKey) :
    ((h.markDisconnected peer n).map fun s => s.holds peer key).sum = 0 := by
  refine sum_eq_zero fun x hx => ?_
  obtain ⟨s', hs', rfl⟩ := mem_map.1 hx
  obtain ⟨i, hi⟩ := getElem?_of_mem hs'
  obtain ⟨s, hs, rfl⟩ := getElem?_markDisconnected hi
  by_cases hold : i < n ∧ s.peer = peer
  · simp [hold, MediaSession.holds]
  · rw [if_neg hold, MediaSession.holds]
    by_cases hp : s.peer = peer ∧ s.disconnected = false
    · rw [if_pos hp]
      have hle : n ≤ i := Nat.not_lt.1 fun hlt => hold ⟨hlt, hp.1⟩
      exact hinv.quiet peer n hn i s hs hle hp.1 key
    · rw [if_neg hp]

theorem Inv.clear (hinv : h.Inv) {peer : UInt64} {n : Nat} (hn : (peer, n) ∈ h.disconnecting) :
    Inv { h with
      subs := h.subs.clearPeer peer
      sessions := h.markDisconnected peer n
      disconnecting := h.disconnecting.erase (peer, n) } := by
  refine ⟨fun p key => ?_, fun d hd hdc key hkey => ?_, fun p m hm i s' hs' hle hp key => ?_⟩
  · show count (retain _ h.subs) (p, key) = ((h.markDisconnected peer n).map _).sum
    rw [count_retain]
    by_cases hp : p = peer
    · subst hp
      rw [hinv.held_markDisconnected hn]
      simp
    · rw [held_markDisconnected_ne n key hp, if_pos (by simpa using hp)]
      exact hinv.balanced p key
  · show ((h.markDisconnected peer n).map _).sum = 0
    obtain ⟨i, hi⟩ := getElem?_of_mem hd
    obtain ⟨s, hs, rfl⟩ := getElem?_markDisconnected hi
    by_cases hp : s.peer = peer
    · have hd' : (if i < n ∧ s.peer = peer then { s with disconnected := true } else s).peer =
          peer := by
        split_ifs <;> exact hp
      rw [hd']
      exact hinv.held_markDisconnected hn key
    · rw [if_neg fun hold => hp hold.2] at hdc hkey ⊢
      rw [held_markDisconnected_ne n key hp]
      exact hinv.apart s (mem_of_getElem? hs) hdc key hkey
  · obtain ⟨s, hs, rfl⟩ := getElem?_markDisconnected hs'
    have hsame : (if i < n ∧ s.peer = peer then { s with disconnected := true } else s).connSubs =
        s.connSubs := by
      split_ifs <;> rfl
    rw [hsame]
    refine hinv.quiet p m (mem_of_mem_erase hm) i s hs hle ?_ key
    rw [← hp]
    split_ifs <;> rfl

theorem mayRegister_iff {s : MediaSession} {key : StreamKey} :
    h.mayRegister s key ↔ s.disconnected = false ∧ (∀ d ∈ h.disconnecting, d.1 ≠ s.peer) ∧
      ∀ d ∈ h.sessions, d.peer = s.peer → d.disconnected → count d.connSubs key = 0 := by
  simp only [mayRegister, Bool.and_eq_true_iff, List.all_eq_true, Bool.not_eq_true', bne_iff_ne,
    and_assoc, Bool.or_eq_true, Bool.and_eq_false_iff, beq_eq_false_iff_ne, beq_iff_eq]
  refine and_congr_right fun _ => and_congr_right fun _ => forall₂_congr fun d _ => ?_
  constructor
  · rintro ((hp | hd) | hc) hp' hd'
    · exact absurd hp' hp
    · rw [hd] at hd'
      cases hd'
    · exact hc
  · intro hc
    by_cases hp : d.peer = s.peer
    · cases hd : d.disconnected with
      | false => exact .inl (.inr rfl)
      | true => exact .inr (hc hp hd)
    · exact .inl (.inl hp)

theorem getElem?_set_cases {l : List MediaSession} {i j : Nat} {s d : MediaSession}
    (hd : (l.set i s)[j]? = some d) : (j = i ∧ d = s) ∨ l[j]? = some d := by
  rw [getElem?_set] at hd
  split_ifs at hd with hij hlt
  · exact .inl ⟨hij.symm, (some.inj hd).symm⟩
  · exact .inr hd

section Session

variable {i : Nat} {s s' : MediaSession} {key : StreamKey} {sinks : AList fun _ : UInt64 => Nat}

theorem Inv.session_none (hinv : h.Inv) (hs : h.sessions[i]? = some s) (hrefs : s'.refs = s.refs) :
    Inv { h with inboundSinks := sinks, sessions := h.sessions.set i s' } := by
  refine hinv.congr rfl (ext_getElem? fun j => ?_) rfl
  rw [getElem?_map, getElem?_map, getElem?_set]
  split_ifs with hij hlt
  · rw [← hij, hs, map_some, map_some, hrefs]
  · exact absurd (List.getElem?_eq_some_iff.1 hs).1 hlt
  · rfl

theorem Inv.session_add (hinv : h.Inv) (hs : h.sessions[i]? = some s) (hpeer : s'.peer = s.peer)
    (hdisc : s'.disconnected = s.disconnected) (hsubs : s'.connSubs = incr s.connSubs key)
    (hmay : h.mayRegister s key) :
    Inv { h with
      subs := h.subs.add s.peer key, inboundSinks := sinks, sessions := h.sessions.set i s' } := by
  obtain ⟨hlive, hnone, hfree⟩ := mayRegister_iff.1 hmay
  have hholds : ∀ p k, s'.holds p k =
      s.holds p k + if (p, k) = (s.peer, key) then 1 else 0 := fun p k => by
    rw [MediaSession.holds, MediaSession.holds, hpeer, hdisc, hsubs, count_incr, hlive]
    by_cases hp : s.peer = p
    · simp [hp]
    · simp [hp, Ne.symm hp]
  have hheld : ∀ p k, ((h.sessions.set i s').map fun d => d.holds p k).sum =
      h.held p k + if (p, k) = (s.peer, key) then 1 else 0 := fun p k => by
    have hsum := sum_map_set (fun d => d.holds p k) hs s'
    rw [hholds] at hsum
    rw [held]
    omega
  refine ⟨fun p k => ?_, fun d hd hdc k hk => ?_, fun p n hn j d hd hle hp k => ?_⟩
  · show count (incr h.subs (s.peer, key)) (p, k) = _
    rw [count_incr, hinv.balanced p k]
    exact (hheld p k).symm
  · show ((h.sessions.set i s').map _).sum = 0
    obtain ⟨j, hj⟩ := getElem?_of_mem hd
    rcases getElem?_set_cases hj with ⟨-, rfl⟩ | hj
    · rw [hdisc, hlive] at hdc
      cases hdc
    · have hmem := mem_of_getElem? hj
      rw [hheld, hinv.apart d hmem hdc k hk, if_neg]
      rintro heq
      obtain ⟨hp, rfl⟩ := Prod.mk.inj heq
      rw [hfree d hmem hp hdc] at hk
      exact absurd hk (Nat.lt_irrefl 0)
  · rcases getElem?_set_cases hd with ⟨-, rfl⟩ | hd
    · exact absurd (hp.symm.trans hpeer) (hnone (p, n) hn)
    · exact hinv.quiet p n hn j d hd hle hp k

theorem Inv.session_remove (hinv : h.Inv) (hs : h.sessions[i]? = some s) (hpeer : s'.peer = s.peer)
    (hdisc : s'.disconnected = s.disconnected) (hsubs : s'.connSubs = decr s.connSubs key)
    (hhas : 0 < count s.connSubs key) :
    Inv { h with
      subs := h.subs.remove s.peer key
      inboundSinks := sinks
      sessions := h.sessions.set i s' } := by
  have hsum : ∀ p k, ((h.sessions.set i s').map fun d => d.holds p k).sum + s.holds p k =
      h.held p k + s'.holds p k := fun p k => sum_map_set (fun d => d.holds p k) hs s'
  have hmem : s ∈ h.sessions := mem_of_getElem? hs
  have hlower : ∀ k, count s'.connSubs k ≤ count s.connSubs k := fun k => by
    rw [hsubs, count_decr]
    omega
  -- what the session gives up is what the table loses; a disconnected one finds nothing there
  have hmove : ∀ p k, s'.holds p k + (count h.subs (p, k) - count (h.subs.remove s.peer key) (p, k))
      = s.holds p k ∧ count (h.subs.remove s.peer key) (p, k) ≤ count h.subs (p, k) := fun p k => by
    rw [SubscriptionTable.remove, count_decr, MediaSession.holds, MediaSession.holds, hpeer, hdisc,
      hsubs, count_decr]
    refine ⟨?_, Nat.sub_le _ _⟩
    by_cases hkey : (p, k) = (s.peer, key)
    · obtain ⟨rfl, rfl⟩ := Prod.mk.inj hkey
      have hbal := hinv.balanced s.peer k
      cases hd : s.disconnected with
      | false =>
        have hle : s.holds s.peer k ≤ h.held s.peer k :=
          le_sum_of_mem (mem_map_of_mem hmem)
        rw [MediaSession.holds, if_pos ⟨rfl, hd⟩] at hle
        simp only [and_self, if_true]
        omega
      | true =>
        have hnone := hinv.apart s hmem hd k hhas
        simp only [if_true, and_false, if_false, Bool.true_eq_false]
        omega
    · by_cases hp : s.peer = p
      · have hk : k ≠ key := fun heq => hkey (by rw [heq, hp])
        simp [hk]
      · simp [hp, Ne.symm hp]
  refine ⟨fun p k => ?_, fun d hd hdc k hk => ?_, fun p n hn j d hd hle hp k => ?_⟩
  · show count (h.subs.remove s.peer key) (p, k) = ((h.sessions.set i s').map _).sum
    have := hinv.balanced p k
    have := hsum p k
    have := hmove p k
    omega
  · show ((h.sessions.set i s').map _).sum = 0
    obtain ⟨j, hj⟩ := getElem?_of_mem hd
    have hzero : h.held d.peer k = 0 := by
      rcases getElem?_set_cases hj with ⟨-, rfl⟩ | hj
      · rw [hpeer]
        exact hinv.apart s hmem (hdisc ▸ hdc) k (Nat.lt_of_lt_of_le hk (hlower k))
      · exact hinv.apart d (mem_of_getElem? hj) hdc k hk
    have := hsum d.peer k
    have := hmove d.peer k
    omega
  · rcases getElem?_set_cases hd with ⟨rfl, rfl⟩ | hd
    · have := hinv.quiet p n hn j s hs hle (hpeer.symm.trans hp) k
      have := hlower k
      omega
    · exact hinv.quiet p n hn j d hd hle hp k

end Session

theorem Inv.step (hinv : h.Inv) {op : FanOutOp} (hmeets : h.meets op)
    (hstep : h.step op = some h') : h'.Inv := by
  cases op with
  | accept peer =>
    cases hstep
    refine (hinv.accept peer).congr rfl ?_ rfl
    rw [map_append, map_append, closeSink_refs]
  | disconnect peer =>
    cases hstep
    exact (hinv.disconnect peer).congr rfl (closeSink_refs h peer) rfl
  | clear peer n =>
    rw [FanOut.step] at hstep
    by_cases hn : (peer, n) ∈ h.disconnecting
    · rw [if_pos hn] at hstep
      cases hstep
      exact hinv.clear hn
    · rw [if_neg hn] at hstep
      cases hstep
  | session i op =>
    rw [FanOut.step] at hstep
    obtain ⟨s, hs, hstep⟩ := bind_eq_some_iff.1 hstep
    obtain ⟨⟨s', edit⟩, hsession, hstep⟩ := bind_eq_some_iff.1 hstep
    cases hstep
    obtain ⟨hpeer, hdisc, hsubs, hhas⟩ := MediaSession.step_spec hsession
    cases edit with
    | none =>
      refine hinv.session_none hs ?_
      rw [MediaSession.refs, MediaSession.refs, hpeer, hdisc, hsubs, TableEdit.tally]
    | add key =>
      simp only [meets, hs, hsession] at hmeets
      exact hinv.session_add hs hpeer hdisc hsubs hmeets
    | remove key => exact hinv.session_remove hs hpeer hdisc hsubs (hhas key rfl)

theorem Inv.start : start.Inv := ⟨fun _ _ => rfl, nofun, nofun⟩

theorem Balanced.has_of_live (hbal : h.Balanced) {s : MediaSession} (hs : s ∈ h.sessions)
    (hlive : s.disconnected = false) {key : StreamKey} (hkey : 0 < count s.connSubs key) :
    h.subs.has s.peer key = true := by
  have hle : s.holds s.peer key ≤ h.held s.peer key := le_sum_of_mem (mem_map_of_mem hs)
  rw [MediaSession.holds, if_pos ⟨rfl, hlive⟩, ← hbal] at hle
  exact lookup_isSome_of_count (Nat.lt_of_lt_of_le hkey hle)

end FanOut

open FanOut

/-- **The fan-out references.** As long as sessions register a stream only when they may, the table
counts what the sessions account for; so a session that was not disconnected keeps what it
registered. -/
theorem fanout_balanced (ops : List FanOutOp) (h : FanOut)
    (hmeets : along FanOut.step meets ops start = true)
    (hrun : replay FanOut.step start ops = some h) :
    h.Balanced ∧ ∀ s ∈ h.sessions, s.disconnected = false → ∀ key, 0 < count s.connSubs key →
      h.subs.has s.peer key = true := by
  have hinv : h.Inv :=
    replay_inv_along (P := Inv) (fun _ _ _ hinv hok hstep => hinv.step hok hstep) Inv.start hmeets
      hrun
  exact ⟨hinv.balanced, fun s hs hlive key hkey => hinv.balanced.has_of_live hs hlive hkey⟩

def subscribeOps (i : Nat) : List FanOutOp :=
  [.session i (.read (.subscribe "live" "a" 1 0)), .session i (.verdict .allow false),
    .session i (.attempt true)]

/-- A session is superseded by a second one, both with the same stream, and is torn down. -/
def supersededOps : List FanOutOp :=
  [FanOutOp.accept 2] ++ subscribeOps 0 ++ [FanOutOp.accept 2] ++ subscribeOps 1 ++
    [FanOutOp.session 0 .leave, .session 0 (.release ("live", "a"))]

theorem fanout_balanced_superseded :
    along FanOut.step meets supersededOps start = true ∧
      ∃ h, replay FanOut.step start supersededOps = some h ∧ h.Balanced ∧
        count h.subs (2, ("live", "a")) = 1 :=
  ⟨by decide, _, rfl, (fanout_balanced supersededOps _ (by decide) rfl).1, by decide⟩

/-- The peer is disconnected and comes back before the task of its first session has ended. -/
def comeBackOps : List FanOutOp :=
  [FanOutOp.accept 2] ++ subscribeOps 0 ++ [FanOutOp.disconnect 2, .clear 2 1, .accept 2] ++
    subscribeOps 1 ++ [FanOutOp.session 0 .leave, .session 0 (.release ("live", "a"))]

/-- The teardown of a disconnected session takes the reference its successor has registered: the
live session holds one and the table has none. -/
theorem teardown_takes_foreign_ref :
    ∃ h, replay FanOut.step start comeBackOps = some h ∧ ¬ h.Balanced ∧
      h.held 2 ("live", "a") = 1 ∧ h.subs.has 2 ("live", "a") = false := by
  refine ⟨_, rfl, fun hbal => ?_, by decide, by decide⟩
  exact absurd (hbal 2 ("live", "a")) (by decide)

end RtmpServer
