import Mathlib.Data.Finset.Insert
import RtmpServer.Lib.Assoc
import RtmpServer.Media.Protocol

/-!
# Routes exported to the other shards

`ExportedRoutes` keeps which connection publishes which route, so that the other shards can be told
when a route ends. `record` goes through the frames of a poll in order, `take_ended` then compares
with the connections that still publish. A tick reports a route that was exported and not reported
since iff the connection of the last frame on it does not publish any more or has moved on
(`mem_tick_iff`).
-/

namespace RtmpServer

open List
open Option hiding mem_map

/-- librtmp2's `RelayFrame`, as far as routes go. -/
structure RelayFrame where
  app : String
  streamName : String
  publisherConnId : UInt64
  deriving DecidableEq, Repr

def RelayFrame.route (f : RelayFrame) : StreamKey := (f.app, f.streamName)

structure ExportedRoutes where
  routes : AList fun _ : StreamKey => UInt64
  connRoutes : AList fun _ : UInt64 => StreamKey

namespace ExportedRoutes

/-- `default`. -/
def new : ExportedRoutes := ⟨∅, ∅⟩

def left (s : ExportedRoutes) (conn : UInt64) (route : StreamKey) : Option StreamKey :=
  (s.connRoutes.lookup conn).filter fun previous =>
    previous ≠ route ∧ s.routes.lookup previous = some conn

/-- The loop body of `record` for a frame of this shard's own publishers. -/
def recordOwn (s : ExportedRoutes × List StreamKey) (frame : RelayFrame) :
    ExportedRoutes × List StreamKey :=
  let conn := frame.publisherConnId
  let route := frame.route
  if s.1.connRoutes.lookup conn = some route ∧ s.1.routes.lookup route = some conn then s
  else
    let routes := (s.1.left conn route).elim s.1.routes s.1.routes.erase
    ({ routes := if routes.lookup route ≠ some conn then routes.insert route conn else routes
       connRoutes := s.1.connRoutes.insert conn route }, s.2 ++ (s.1.left conn route).toList)

/-- `record`. `external` is librtmp2's `is_external_publisher_id`. -/
def record (external : UInt64 → Bool) (s : ExportedRoutes) (frames : List RelayFrame) :
    ExportedRoutes × List StreamKey :=
  let (s, ended) := frames.foldl
    (fun s frame => if external frame.publisherConnId then s else recordOwn s frame) (s, [])
  (s, ended.filter fun route => (s.routes.lookup route).isNone)

def takeEnded (s : ExportedRoutes) (publishing : Finset UInt64) :
    ExportedRoutes × List StreamKey :=
  let routes := Lib.Assoc.retain (fun _ conn => conn ∈ publishing) s.routes
  ({ routes
     connRoutes := Lib.Assoc.retain
      (fun conn route => conn ∈ publishing ∧ routes.lookup route = some conn) s.connRoutes },
    (s.routes.entries.filter fun e => e.2 ∉ publishing).map Sigma.fst)

/-- What `relay_to_other_shards` does with the routes, and the routes it reports. -/
def tick (external : UInt64 → Bool) (s : ExportedRoutes) (frames : List RelayFrame)
    (publishing : Finset UInt64) : ExportedRoutes × List StreamKey :=
  let (s, ended) := s.record external frames
  let (s, ended') := s.takeEnded publishing
  (s, ended ++ ended')

end ExportedRoutes

/-! ### Histories -/

def ownFrames (external : UInt64 → Bool) (frames : List RelayFrame) : List RelayFrame :=
  frames.filter fun frame => !external frame.publisherConnId

def lastRoute (sent : List RelayFrame) (conn : UInt64) : Option StreamKey :=
  (sent.filter fun f => f.publisherConnId = conn).getLast?.map RelayFrame.route

def lastSender (sent : List RelayFrame) (route : StreamKey) : Option UInt64 :=
  (sent.filter fun f => f.route = route).getLast?.map RelayFrame.publisherConnId

/-- The routes of a shard, with all frames of its publishers so far and the routes that were
exported and not reported since. -/
structure RouteHistory where
  routes : ExportedRoutes
  sent : List RelayFrame
  unreported : List StreamKey

namespace RouteHistory

def start : RouteHistory := ⟨.new, [], []⟩

def sentWith (external : UInt64 → Bool) (h : RouteHistory) (frames : List RelayFrame) :
    List RelayFrame :=
  h.sent ++ ownFrames external frames

/-- The routes exported and not reported since, with those of a further batch. -/
def unreportedWith (external : UInt64 → Bool) (h : RouteHistory) (frames : List RelayFrame) :
    List StreamKey :=
  h.unreported ++ (ownFrames external frames).map RelayFrame.route

def step (external : UInt64 → Bool) (h : RouteHistory)
    (t : List RelayFrame × Finset UInt64) : RouteHistory :=
  let (routes, ended) := h.routes.tick external t.1 t.2
  { routes
    sent := h.sentWith external t.1
    unreported := (h.unreportedWith external t.1).filter fun route => route ∉ ended }

def run (external : UInt64 → Bool) (ticks : List (List RelayFrame × Finset UInt64)) :
    RouteHistory :=
  ticks.foldl (step external) start

end RouteHistory

/-! ### One frame -/

theorem lastRoute_snoc (sent : List RelayFrame) (f : RelayFrame) (conn : UInt64) :
    lastRoute (sent ++ [f]) conn =
      if conn = f.publisherConnId then some f.route else lastRoute sent conn := by
  by_cases h : conn = f.publisherConnId
  · simp [lastRoute, h]
  · simp [lastRoute, h, Ne.symm h]

theorem lastSender_snoc (sent : List RelayFrame) (f : RelayFrame) (route : StreamKey) :
    lastSender (sent ++ [f]) route =
      if route = f.route then some f.publisherConnId else lastSender sent route := by
  by_cases h : route = f.route
  · simp [lastSender, h]
  · simp [lastSender, h, Ne.symm h]

namespace ExportedRoutes

variable {s : ExportedRoutes} {ended : List StreamKey} {f : RelayFrame}

theorem left_eq_some {conn : UInt64} {route previous : StreamKey} :
    s.left conn route = some previous ↔
      s.connRoutes.lookup conn = some previous ∧ previous ≠ route ∧
        s.routes.lookup previous = some conn := by
  simp [left, filter_eq_some_iff]

theorem left_eq_none_of_fast {conn : UInt64} {route : StreamKey}
    (h : s.connRoutes.lookup conn = some route) : s.left conn route = none := by
  simp [left, h]

theorem recordOwn_ended : (recordOwn (s, ended) f).2 =
    ended ++ (s.left f.publisherConnId f.route).toList := by
  unfold recordOwn
  simp only
  split
  · rename_i hfast
    simp [left_eq_none_of_fast hfast.1]
  · rfl

theorem recordOwn_connRoutes (conn : UInt64) :
    (recordOwn (s, ended) f).1.connRoutes.lookup conn =
      if conn = f.publisherConnId then some f.route else s.connRoutes.lookup conn := by
  unfold recordOwn
  simp only
  split
  · rename_i hfast
    by_cases hconn : conn = f.publisherConnId
    · subst hconn
      rw [if_pos rfl, hfast.1]
    · rw [if_neg hconn]
  · exact Lib.Assoc.lookup_insert _ _ _ _

theorem recordOwn_routes (route : StreamKey) :
    (recordOwn (s, ended) f).1.routes.lookup route =
      if route = f.route then some f.publisherConnId
      else if s.left f.publisherConnId f.route = some route then none
      else s.routes.lookup route := by
  unfold recordOwn
  simp only
  split
  · rename_i hfast
    by_cases hroute : route = f.route
    · subst hroute
      rw [if_pos rfl, hfast.2]
    · simp [hroute, left_eq_none_of_fast hfast.1]
  · rw [Lib.Assoc.lookup_insert_unless, Lib.Assoc.lookup_elim_erase]

end ExportedRoutes

/-! ### A batch -/

/-- What the two maps say of the frames so far: `ended` are the routes left in the batch and
`unreported` those that were exported and not reported since. -/
structure RoutesOf (sent : List RelayFrame) (unreported : List StreamKey) (s : ExportedRoutes)
    (ended : List StreamKey) : Prop where
  owner : ∀ r c, s.routes.lookup r = some c → s.connRoutes.lookup c = some r
  recent : ∀ c r, s.connRoutes.lookup c = some r → lastRoute sent c = some r
  sender : ∀ r c, s.routes.lookup r = some c → lastSender sent r = some c
  open_iff : ∀ r, r ∈ unreported ↔ (s.routes.lookup r).isSome ∨ r ∈ ended
  /-- The last sender of a route that was left is on another one. -/
  moved : ∀ r c, r ∈ unreported → s.routes.lookup r = none → lastSender sent r = some c →
    lastRoute sent c ≠ some r

namespace RoutesOf

open ExportedRoutes

variable {sent : List RelayFrame} {unreported ended : List StreamKey} {s : ExportedRoutes}

variable (h : RoutesOf sent unreported s ended)
include h

theorem left_iff {c : UInt64} {r r' : StreamKey} :
    s.left c r = some r' ↔ r' ≠ r ∧ s.routes.lookup r' = some c := by
  rw [left_eq_some]
  constructor
  · exact fun hleft => hleft.2
  · exact fun hown => ⟨h.owner _ _ hown.2, hown⟩

theorem recordOwn (f : RelayFrame) :
    RoutesOf (sent ++ [f]) (unreported ++ [f.route]) (recordOwn (s, ended) f).1
      (recordOwn (s, ended) f).2 := by
  constructor
  · intro r c
    rw [recordOwn_routes, recordOwn_connRoutes]
    by_cases hr : r = f.route
    · rw [if_pos hr]
      intro hc
      rw [if_pos (some.inj hc).symm, hr]
    · simp only [if_neg hr, h.left_iff]
      split
      · simp
      · rename_i hleft
        intro hc
        have hne : c ≠ f.publisherConnId := by
          rintro rfl
          exact hleft ⟨hr, hc⟩
        rw [if_neg hne]
        exact h.owner r c hc
  · intro c r
    rw [recordOwn_connRoutes, lastRoute_snoc]
    split
    · exact id
    · exact h.recent c r
  · intro r c
    rw [recordOwn_routes, lastSender_snoc]
    split
    · exact id
    · split
      · simp
      · exact h.sender r c
  · intro r
    rw [recordOwn_routes, recordOwn_ended, mem_append, mem_append, mem_singleton,
      h.open_iff, mem_toList]
    by_cases hr : r = f.route
    · simp [hr]
    · by_cases hleft : s.left f.publisherConnId f.route = some r
      · have hown := (h.left_iff.1 hleft).2
        simp [hr, hleft, hown]
      · simp [hr, hleft]
  · intro r c
    rw [recordOwn_routes, lastSender_snoc, lastRoute_snoc, mem_append, mem_singleton]
    by_cases hr : r = f.route
    · simp [hr]
    · simp only [if_neg hr, h.left_iff]
      intro hmem hnone hsender
      by_cases hc : c = f.publisherConnId
      · rw [if_pos hc]
        exact fun heq => hr (some.inj heq).symm
      · rw [if_neg hc]
        refine h.moved r c (hmem.resolve_right hr) ?_ hsender
        by_contra hsome
        obtain ⟨c', hc'⟩ := ne_none_iff_exists'.1 hsome
        have hsame : c' = c := some.inj ((h.sender r c' hc').symm.trans hsender)
        subst hsame
        rw [if_neg (fun hleft => hc (some.inj (hc'.symm.trans hleft.2))), hc'] at hnone
        cases hnone

theorem foldl_recordOwn (frames : List RelayFrame) :
    RoutesOf (sent ++ frames) (unreported ++ frames.map RelayFrame.route)
      (frames.foldl ExportedRoutes.recordOwn (s, ended)).1
      (frames.foldl ExportedRoutes.recordOwn (s, ended)).2 := by
  induction frames generalizing sent unreported s ended with
  | nil => simpa using h
  | cons f frames ih =>
    have hnext := ih (h.recordOwn f)
    simpa using hnext

theorem routes_iff {r : StreamKey} (hr : r ∈ unreported) (c : UInt64) :
    s.routes.lookup r = some c ↔ lastSender sent r = some c ∧ lastRoute sent c = some r := by
  constructor
  · exact fun hown => ⟨h.sender r c hown, h.recent c r (h.owner r c hown)⟩
  · rintro ⟨hsender, hroute⟩
    cases hown : s.routes.lookup r with
    | none => exact absurd hroute (h.moved r c hr hown hsender)
    | some c' => rw [← h.sender r c' hown, hsender]

end RoutesOf

/-! ### A tick -/

namespace ExportedRoutes

variable {external : UInt64 → Bool} {s : ExportedRoutes} {publishing : Finset UInt64}

theorem record_eq (external : UInt64 → Bool) (s : ExportedRoutes) (frames : List RelayFrame) :
    s.record external frames =
      (((ownFrames external frames).foldl recordOwn (s, [])).1,
        ((ownFrames external frames).foldl recordOwn (s, [])).2.filter fun route =>
          (((ownFrames external frames).foldl recordOwn (s, [])).1.routes.lookup route).isNone) := by
  have hfold : frames.foldl
      (fun s frame => if external frame.publisherConnId then s else recordOwn s frame) (s, []) =
        (ownFrames external frames).foldl recordOwn (s, []) := by
    rw [ownFrames, foldl_filter]
    congr 1
    funext s f
    cases external f.publisherConnId <;> rfl
  rw [record, hfold]

theorem mem_takeEnded {r : StreamKey} :
    r ∈ (s.takeEnded publishing).2 ↔ ∃ c, s.routes.lookup r = some c ∧ c ∉ publishing := by
  simp only [takeEnded, mem_map, mem_filter, decide_eq_true_eq]
  constructor
  · rintro ⟨⟨r, c⟩, ⟨hmem, hc⟩, rfl⟩
    exact ⟨c, AList.mem_lookup_iff.2 hmem, hc⟩
  · rintro ⟨c, hown, hc⟩
    exact ⟨⟨r, c⟩, ⟨AList.mem_lookup_iff.1 hown, hc⟩, rfl⟩

theorem takeEnded_routes (s : ExportedRoutes) (publishing : Finset UInt64) (r : StreamKey)
    (c : UInt64) : (s.takeEnded publishing).1.routes.lookup r = some c ↔
      s.routes.lookup r = some c ∧ c ∈ publishing := by
  rw [takeEnded, Lib.Assoc.lookup_retain_eq_some, decide_eq_true_eq]

theorem takeEnded_connRoutes {c : UInt64} {r : StreamKey} :
    (s.takeEnded publishing).1.connRoutes.lookup c = some r ↔
      s.connRoutes.lookup c = some r ∧ c ∈ publishing ∧ s.routes.lookup r = some c := by
  have hroutes := takeEnded_routes s publishing r c
  rw [takeEnded] at hroutes ⊢
  rw [Lib.Assoc.lookup_retain_eq_some, decide_eq_true_eq, hroutes]
  tauto

end ExportedRoutes

namespace RouteHistory

open ExportedRoutes

variable {external : UInt64 → Bool} {h : RouteHistory}

def Kept (h : RouteHistory) : Prop := RoutesOf h.sent h.unreported h.routes []

theorem Kept.recorded (hk : h.Kept) (external : UInt64 → Bool) (frames : List RelayFrame) :
    RoutesOf (h.sentWith external frames) (h.unreportedWith external frames)
      ((ownFrames external frames).foldl recordOwn (h.routes, [])).1
      ((ownFrames external frames).foldl recordOwn (h.routes, [])).2 :=
  RoutesOf.foldl_recordOwn hk _

/-- **What a tick reports**: the routes exported and not reported since that have no live
connection which sent the last frame on them and nothing elsewhere after it. -/
theorem Kept.mem_tick_iff (hk : h.Kept) (frames : List RelayFrame) (publishing : Finset UInt64)
    (route : StreamKey) :
    route ∈ (h.routes.tick external frames publishing).2 ↔
      route ∈ h.unreportedWith external frames ∧
        ¬ ∃ c ∈ publishing, lastSender (h.sentWith external frames) route = some c ∧
          lastRoute (h.sentWith external frames) c = some route := by
  have hrec := hk.recorded external frames
  rw [tick, record_eq]
  simp only [mem_append, mem_filter, mem_takeEnded]
  generalize (ownFrames external frames).foldl recordOwn (h.routes, []) = p at hrec ⊢
  by_cases hopen : route ∈ h.unreportedWith external frames
  · simp only [hopen, true_and, ← hrec.routes_iff hopen]
    have hmem := (hrec.open_iff route).1 hopen
    cases hown : p.1.routes.lookup route with
    | none => simp_all
    | some c => simp
  · have hnone := mt (hrec.open_iff route).2 hopen
    rw [not_or, not_isSome_iff_eq_none] at hnone
    simp [hopen, hnone.1, hnone.2]

theorem step_routes (external : UInt64 → Bool) (h : RouteHistory)
    (t : List RelayFrame × Finset UInt64) :
    (h.step external t).routes =
      (((ownFrames external t.1).foldl recordOwn (h.routes, [])).1.takeEnded t.2).1 := by
  simp [step, tick, record_eq]

theorem Kept.mem_unreported_step (hk : h.Kept) (external : UInt64 → Bool)
    (t : List RelayFrame × Finset UInt64) (route : StreamKey) :
    route ∈ (h.step external t).unreported ↔
      ((h.step external t).routes.routes.lookup route).isSome := by
  have hrec := hk.recorded external t.1
  have hmem : route ∈ (h.step external t).unreported ↔ route ∈ h.unreportedWith external t.1 ∧
      route ∉ (h.routes.tick external t.1 t.2).2 := by
    simp [step]
  rw [hmem, hk.mem_tick_iff, isSome_iff_exists]
  simp only [step_routes, takeEnded_routes]
  by_cases hopen : route ∈ h.unreportedWith external t.1
  · simp only [hopen, true_and, not_not, ← hrec.routes_iff hopen]
    simp only [and_comm]
  · have hnone := mt (hrec.open_iff route).2 hopen
    rw [not_or, not_isSome_iff_eq_none] at hnone
    simp [hopen, hnone.1]

theorem Kept.step (hk : h.Kept) (external : UInt64 → Bool) (t : List RelayFrame × Finset UInt64) :
    (h.step external t).Kept := by
  have hrec := hk.recorded external t.1
  have hopen := hk.mem_unreported_step external t
  constructor
  · intro r c
    rw [step_routes, takeEnded_routes, takeEnded_connRoutes]
    exact fun hown => ⟨hrec.owner r c hown.1, hown.2, hown.1⟩
  · intro c r
    rw [step_routes, takeEnded_connRoutes]
    exact fun hconn => hrec.recent c r hconn.1
  · intro r c
    rw [step_routes, takeEnded_routes]
    exact fun hown => hrec.sender r c hown.1
  · intro r
    rw [hopen, or_iff_left not_mem_nil]
  · intro r c hmem hnone
    rw [hopen, hnone] at hmem
    cases hmem

theorem kept_run (external : UInt64 → Bool) (ticks : List (List RelayFrame × Finset UInt64)) :
    (run external ticks).Kept := by
  induction ticks using reverseRecOn with
  | nil =>
    constructor
    · exact fun r c hown => by cases hown
    · exact fun c r hconn => by cases hconn
    · exact fun r c hown => by cases hown
    · exact fun r => by simp [run, start, new]
    · exact fun r c hmem => absurd hmem not_mem_nil
  | append_singleton ticks t ih =>
    rw [run, foldl_append, ← run]
    exact ih.step external t

end RouteHistory

/-- **Route ends.** A tick reports exactly the routes not reported since that no live publisher's
most recent frame is on, iff the last frame on a route with such a publisher is of such a publisher. -/
theorem route_ends_iff (external : UInt64 → Bool) (ticks : List (List RelayFrame × Finset UInt64))
    (frames : List RelayFrame) (publishing : Finset UInt64) (route : StreamKey) :
    (route ∈ ((RouteHistory.run external ticks).routes.tick external frames publishing).2 ↔
      route ∈ (RouteHistory.run external ticks).unreportedWith external frames ∧
        ∀ c ∈ publishing,
          lastRoute ((RouteHistory.run external ticks).sentWith external frames) c ≠ some route) ↔
      (route ∈ (RouteHistory.run external ticks).unreportedWith external frames →
        ∀ c ∈ publishing,
          lastRoute ((RouteHistory.run external ticks).sentWith external frames) c = some route →
          ∃ c' ∈ publishing,
            lastRoute ((RouteHistory.run external ticks).sentWith external frames) c' = some route ∧
            lastSender ((RouteHistory.run external ticks).sentWith external frames) route =
              some c') := by
  rw [(RouteHistory.kept_run external ticks).mem_tick_iff]
  generalize (RouteHistory.run external ticks).sentWith external frames = sent
  by_cases hopen : route ∈ (RouteHistory.run external ticks).unreportedWith external frames
  · simp only [hopen, true_and, forall_true_left]
    constructor
    · intro hreport c hc hroute
      by_contra hnone
      refine hreport.1 ?_ c hc hroute
      rintro ⟨c', hc', hsender, hroute'⟩
      exact hnone ⟨c', hc', hroute', hsender⟩
    · intro hsender
      constructor
      · rintro hnone c hc hroute
        obtain ⟨c', hc', hroute', hlast⟩ := hsender c hc hroute
        exact hnone ⟨c', hc', hlast, hroute'⟩
      · rintro hall ⟨c, hc, -, hroute⟩
        exact hall c hc hroute
  · simp [hopen]

/-- The ids of injected frames, as librtmp2 gives them. -/
def injectedId (conn : UInt64) : Bool := 0x8000000000000000 ≤ conn

/-- Connection 2 takes the route over from connection 1, whose last frame comes first. -/
theorem route_ends_iff_takeover :
    ("live", "a") ∈ ((RouteHistory.run injectedId [([⟨"live", "a", 1⟩], {1})]).routes.tick injectedId
        [⟨"live", "a", 1⟩, ⟨"live", "a", 2⟩] {2}).2 ↔
      ("live", "a") ∈ (RouteHistory.run injectedId [([⟨"live", "a", 1⟩], {1})]).unreportedWith
          injectedId [⟨"live", "a", 1⟩, ⟨"live", "a", 2⟩] ∧
        ∀ c ∈ ({2} : Finset UInt64),
          lastRoute ((RouteHistory.run injectedId [([⟨"live", "a", 1⟩], {1})]).sentWith injectedId
            [⟨"live", "a", 1⟩, ⟨"live", "a", 2⟩]) c ≠ some ("live", "a") :=
  (route_ends_iff injectedId [([⟨"live", "a", 1⟩], {1})] [⟨"live", "a", 1⟩, ⟨"live", "a", 2⟩] {2}
    ("live", "a")).2 fun _ _ _ _ => ⟨2, by simp, by decide, by decide⟩

/-- Connection 1 is live and its most recent frame is on the route, but a frame of connection 2,
which is gone, is the last of the batch. -/
theorem stale_frame_ends_live_route :
    ("live", "a") ∈ (ExportedRoutes.new.tick injectedId
        [⟨"live", "a", 1⟩, ⟨"live", "a", 2⟩] {1}).2 ∧
      lastRoute (RouteHistory.start.sentWith injectedId [⟨"live", "a", 1⟩, ⟨"live", "a", 2⟩]) 1 =
        some ("live", "a") := by
  decide

end RtmpServer
