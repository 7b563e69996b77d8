import RtmpServer.Http.StreamDelete
import RtmpServer.Cluster.AccessKeys

/-!
# The two coordinators

`StateCoordinator` of `state.rs` has one set of calls and two ways to run them: on the database
itself, or as commands of a Raft log. `standaloneCall` and `clusterCall` are the two, the second for
a cluster of one node that commits and applies the command before the call returns.

Viewer ids and delete tokens are generated for each stream, so the two sides agree up to a renaming
of both (`Renamed`).
-/

namespace RtmpServer

open List Lib.Table Except

/-! ### The calls -/

/-- What `keygen` makes for a new stream. The token is `keygen_delete_token`, or the derived one if
that fails. -/
structure Generated where
  viewerId : String
  deleteToken : String
  token_ne_empty : deleteToken ≠ ""

def Stream.defaultViewer (s : Stream) (viewerId : String) : StreamViewer :=
  ⟨viewerId, s.id, "Player 1", s.playKey, true, s.createdAt⟩

inductive CoordCall where
  | createStream (stream : Stream) (generated : Generated)
  | beginDeleteStreamExpecting (id : String) (expectedCreatedAt : Option Int)
      (expectedDeleteToken : Option String)
  | finalizeDeleteStream (id : String)
  | setStreamEnabled (id : String) (enabled : Bool)
  | createViewer (viewer : StreamViewer)
  | deleteViewer (streamId viewerId : String)

/-- What a call returns; `create_stream` returns the default viewer. -/
abbrev CoordResult := Except CoordError (Option StreamViewer)

/-! ### Standalone -/

inductive ViewerDeleteResult where
  | deleted
  | notFound
  | lastRemaining
  deriving DecidableEq, Repr

namespace Db

def streamAdd (db : Db) (s : Stream) (generated : Generated) :
    Except StreamAddError (Db × StreamViewer) :=
  let viewer := s.defaultViewer generated.viewerId
  (db.streamAddWithViewerWithToken s viewer generated.deleteToken).map fun db' => (db', viewer)

/-- `SELECT COUNT(*) FROM stream_viewers WHERE stream_id=?`. -/
def viewerCount (db : Db) (streamId : String) : Nat := db.viewers.countP fun v => v.streamId = streamId

def viewerExists (db : Db) (streamId viewerId : String) : Bool :=
  db.viewers.any fun v => v.streamId = streamId ∧ v.id = viewerId

def viewerDeleteIfNotLast (db : Db) (streamId viewerId : String) : Db × ViewerDeleteResult :=
  if db.viewerExists streamId viewerId = false then (db, .notFound)
  else if db.viewerCount streamId ≤ 1 then (db, .lastRemaining)
  else
    match db.viewerDelete streamId viewerId with
    | (db', true) => (db', .deleted)
    | (db', false) => (db', .notFound)

end Db

def standaloneCall (db : Db) : CoordCall → Db × CoordResult
  | .createStream stream generated =>
    match db.streamAdd stream generated with
    | .ok (db', viewer) => (db', .ok (some viewer))
    | .error .duplicate => (db, .error .duplicate)
    | .error .db => (db, .error .db)
  | .beginDeleteStreamExpecting id expectedCreatedAt expectedDeleteToken =>
    match db.streamDisableExpecting id expectedCreatedAt expectedDeleteToken with
    | (db', .disabled) => (db', .ok none)
    | (db', .missing) => (db', .error .notFound)
    | (db', .stale) => (db', .error .conflict)
  | .finalizeDeleteStream id =>
    match db.streamDeleteIfPending id with
    | (db', true) => (db', .ok none)
    | (db', false) => (db', .error (if (db'.streamGet id).isSome then .conflict else .notFound))
  | .setStreamEnabled id enabled =>
    match db.streamSetEnabled id enabled with
    | (db', true) => (db', .ok none)
    | (db', false) => (db', .error (if (db'.streamGet id).isSome then .db else .notFound))
  | .createViewer viewer =>
    match db.viewerAdd viewer with
    | .ok db' => (db', .ok none)
    | .error .duplicate => (db, .error .duplicate)
    | .error .parentUnavailable => (db, .error .conflict)
    | .error .db => (db, .error .db)
  | .deleteViewer streamId viewerId =>
    match db.viewerDeleteIfNotLast streamId viewerId with
    | (db', .deleted) => (db', .ok none)
    | (db', .notFound) => (db', .error .notFound)
    | (db', .lastRemaining) => (db', .error .conflict)

/-! ### Cluster -/

def CoordCall.command : CoordCall → ClusterCommand
  | .createStream stream generated =>
    .createStream stream (stream.defaultViewer generated.viewerId) generated.deleteToken
  | .beginDeleteStreamExpecting id expectedCreatedAt expectedDeleteToken =>
    .beginDeleteStream id expectedCreatedAt expectedDeleteToken
  | .finalizeDeleteStream id => .finalizeDeleteStream id
  | .setStreamEnabled id enabled => .setStreamEnabled id enabled
  | .createViewer viewer => .createViewer viewer
  | .deleteViewer streamId viewerId => .deleteViewer streamId viewerId

def CoordCall.returned : CoordCall → Option StreamViewer
  | .createStream stream generated => some (stream.defaultViewer generated.viewerId)
  | _ => none

/-- One node: the command is applied at the next index of its log, and the response mapped. -/
def clusterCall (s : UInt64 × Db) (call : CoordCall) : (UInt64 × Db) × CoordResult :=
  let r := applyNormal s.1 s.2 call.command
  ((s.1 + 1, r.db), r.response.intoCoordResult.map fun _ => call.returned)

def runCalls {σ : Type} (run : σ → CoordCall → σ × CoordResult) :
    σ → List CoordCall → σ × List CoordResult
  | s, [] => (s, [])
  | s, call :: calls =>
    let r := run s call
    let rest := runCalls run r.1 calls
    (rest.1, r.2 :: rest.2)

/-! ### Generated names -/

def StreamRow.retoken (τ : String → String) (r : StreamRow) : StreamRow :=
  { r with deleteToken := τ r.deleteToken }

def StreamViewer.reid (σ : String → String) (v : StreamViewer) : StreamViewer :=
  { v with id := σ v.id }

/-- The same rows, with viewer ids under `σ` and delete tokens under `τ`. -/
structure Renamed (σ τ : String → String) (db db' : Db) : Prop where
  streams : db'.streams = db.streams.map (StreamRow.retoken τ)
  viewers : db'.viewers = db.viewers.map (StreamViewer.reid σ)

inductive CoordCall.Renamed (σ τ : String → String) : CoordCall → CoordCall → Prop
  | createStream (stream : Stream) {g g' : Generated} (hid : g'.viewerId = σ g.viewerId)
      (htoken : g'.deleteToken = τ g.deleteToken) :
      Renamed σ τ (.createStream stream g) (.createStream stream g')
  | beginDeleteStreamExpecting (id : String) (createdAt : Option Int) (token : Option String) :
      Renamed σ τ (.beginDeleteStreamExpecting id createdAt token)
        (.beginDeleteStreamExpecting id createdAt (token.map τ))
  | finalizeDeleteStream (id : String) :
      Renamed σ τ (.finalizeDeleteStream id) (.finalizeDeleteStream id)
  | setStreamEnabled (id : String) (enabled : Bool) :
      Renamed σ τ (.setStreamEnabled id enabled) (.setStreamEnabled id enabled)
  | createViewer (viewer : StreamViewer) :
      Renamed σ τ (.createViewer viewer) (.createViewer (viewer.reid σ))
  | deleteViewer (streamId viewerId : String) :
      Renamed σ τ (.deleteViewer streamId viewerId) (.deleteViewer streamId (σ viewerId))

def CoordResult.reid (σ : String → String) (r : CoordResult) : CoordResult :=
  r.map fun viewer => viewer.map (StreamViewer.reid σ)

theorem Db.disableMatches_retoken {τ : String → String} (hτ : Function.Injective τ) (id : String)
    (createdAt : Option Int) (token : Option String) (r : StreamRow) :
    disableMatches id createdAt (token.map τ) (r.retoken τ) =
      disableMatches id createdAt token r := by
  cases token with
  | none => cases createdAt <;> rfl
  | some t => cases createdAt <;> simp [disableMatches, StreamRow.retoken, hτ.eq_iff]

namespace Renamed

variable {σ τ : String → String} {db db' : Db} (h : Renamed σ τ db db')

include h

/-! ### Queries -/

theorem any_streams (p : StreamRow → Bool) (hp : ∀ r, p (r.retoken τ) = p r) :
    db'.streams.any p = db.streams.any p := by
  rw [h.streams, any_map_of_eq hp]

theorem any_viewers (p : StreamViewer → Bool) (hp : ∀ v, p (v.reid σ) = p v) :
    db'.viewers.any p = db.viewers.any p := by
  rw [h.viewers, any_map_of_eq hp]

theorem hasStream (id : String) : db'.hasStream id = db.hasStream id :=
  h.any_streams _ fun _ => rfl

theorem parentAvailable (id : String) : db'.parentAvailable id = db.parentAvailable id :=
  h.any_streams _ fun _ => rfl

theorem streamConstraintViolated (s : Stream) :
    db'.streamConstraintViolated s = db.streamConstraintViolated s :=
  h.any_streams _ fun _ => rfl

theorem keyGloballyInUse (key : String) : db'.keyGloballyInUse key = db.keyGloballyInUse key := by
  unfold Db.keyGloballyInUse
  rw [h.any_streams _ fun _ => rfl, h.any_viewers _ fun _ => rfl]

theorem streamKeysInUse (s : Stream) : db'.streamKeysInUse s = db.streamKeysInUse s := by
  simp only [Db.streamKeysInUse, any_cons, any_nil, h.keyGloballyInUse]

theorem streamRow (id : String) : db'.streamRow id = (db.streamRow id).map (StreamRow.retoken τ) := by
  rw [Db.streamRow, Db.streamRow, h.streams]
  exact lookup_map (fun _ => rfl) _ _

theorem streamGet (id : String) : db'.streamGet id = db.streamGet id := by
  rw [Db.streamGet, Db.streamGet, h.streamRow, Option.map_map]
  rfl

theorem viewerCount (streamId : String) : db'.viewerCount streamId = db.viewerCount streamId := by
  rw [Db.viewerCount, Db.viewerCount, h.viewers, countP_map]
  rfl

theorem viewerKeyTaken (v : StreamViewer) :
    db'.viewerKeyTaken (v.reid σ) = db.viewerKeyTaken v := by
  have hplay : (db'.streamRow v.streamId).map (·.playKey) =
      (db.streamRow v.streamId).map (·.playKey) := by
    rw [h.streamRow, Option.map_map]
    rfl
  show (if (db'.streamRow v.streamId).map (·.playKey) = some v.playKey then _ else _) = _
  rw [hplay]
  unfold Db.viewerKeyTaken
  split_ifs
  · exact h.any_viewers _ fun _ => rfl
  · exact h.keyGloballyInUse v.playKey

section Injective

variable (hσ : Function.Injective σ)

include hσ

theorem viewerConstraintViolated (v : StreamViewer) :
    db'.viewerConstraintViolated (v.reid σ) = db.viewerConstraintViolated v := by
  unfold Db.viewerConstraintViolated
  rw [h.viewers, any_map_of_eq (p := fun r => decide (r.id = v.id ∨ r.playKey = v.playKey))]
  intro r
  simp [StreamViewer.reid, hσ.eq_iff]

theorem viewerExists (streamId viewerId : String) :
    db'.viewerExists streamId (σ viewerId) = db.viewerExists streamId viewerId := by
  unfold Db.viewerExists
  rw [h.viewers, any_map_of_eq (p := fun v => decide (v.streamId = streamId ∧ v.id = viewerId))]
  intro v
  simp [StreamViewer.reid, hσ.eq_iff]

/-! ### Statements -/

theorem insertViewer (v : StreamViewer) :
    Option.Rel (Renamed σ τ) (db.insertViewer v) (db'.insertViewer (v.reid σ)) := by
  unfold Db.insertViewer
  rw [h.viewerConstraintViolated hσ]
  show Option.Rel _ _ (if _ || !db'.hasStream v.streamId then _ else _)
  rw [h.hasStream]
  split_ifs
  · exact .none
  · refine .some ⟨h.streams, ?_⟩
    show db'.viewers ++ [v.reid σ] = (db.viewers ++ [v]).map _
    rw [map_append, h.viewers]
    rfl

theorem viewerDelete (streamId viewerId : String) :
    Renamed σ τ (db.viewerDelete streamId viewerId).1
      (db'.viewerDelete streamId (σ viewerId)).1 := by
  refine ⟨h.streams, ?_⟩
  show deleteWhere _ db'.viewers = _
  rw [h.viewers]
  refine deleteWhere_map (fun v => ?_) _
  simp [StreamViewer.reid, hσ.eq_iff]

end Injective

theorem insertStream (s : Stream) (token : String) :
    Option.Rel (Renamed σ τ) (db.insertStream s token) (db'.insertStream s (τ token)) := by
  unfold Db.insertStream
  rw [h.streamConstraintViolated]
  split_ifs
  · exact .none
  · refine .some ⟨?_, h.viewers⟩
    show db'.streams ++ [_] = (db.streams ++ [_]).map _
    rw [map_append, h.streams]
    rfl

theorem setStreamFlags {p q : StreamRow → Bool} (hq : ∀ r, q (r.retoken τ) = p r)
    (enabled pendingDelete : Bool) :
    Renamed σ τ (db.setStreamFlags p enabled pendingDelete)
      (db'.setStreamFlags q enabled pendingDelete) := by
  refine ⟨?_, h.viewers⟩
  show updateWhere _ _ db'.streams = _
  rw [h.streams]
  exact updateWhere_map (f := StreamRow.withFlags enabled pendingDelete) hq (fun _ => rfl) _

theorem streamDeleteIfPending (id : String) :
    (db'.streamDeleteIfPending id).2 = (db.streamDeleteIfPending id).2 ∧
      Renamed σ τ (db.streamDeleteIfPending id).1 (db'.streamDeleteIfPending id).1 := by
  unfold Db.streamDeleteIfPending
  dsimp only
  rw [h.any_streams _ fun _ => rfl]
  split_ifs
  · refine ⟨rfl, ?_, ?_⟩
    · show deleteWhere _ db'.streams = _
      rw [h.streams]
      exact deleteWhere_map (fun _ => rfl) _
    · show deleteWhere _ db'.viewers = _
      rw [h.viewers]
      exact deleteWhere_map (fun _ => rfl) _
  · exact ⟨rfl, h⟩

/-! ### Standalone calls -/

variable (hσ : Function.Injective σ)
include hσ

theorem streamAddWithViewer (s : Stream) (viewer : StreamViewer) (token : String) :
    (∃ d d', db.streamAddWithViewerWithToken s viewer token = .ok d ∧
      db'.streamAddWithViewerWithToken s (viewer.reid σ) (τ token) = .ok d' ∧ Renamed σ τ d d') ∨
    ∃ e, db.streamAddWithViewerWithToken s viewer token = .error e ∧
      db'.streamAddWithViewerWithToken s (viewer.reid σ) (τ token) = .error e := by
  have hmatch : ((viewer.reid σ).streamId ≠ s.id ∨ (viewer.reid σ).playKey ≠ s.playKey) ↔
      (viewer.streamId ≠ s.id ∨ viewer.playKey ≠ s.playKey) := Iff.rfl
  unfold Db.streamAddWithViewerWithToken
  simp only [hmatch, h.streamKeysInUse]
  split_ifs
  · exact .inr ⟨_, rfl, rfl⟩
  · exact .inr ⟨_, rfl, rfl⟩
  · have hstream := h.insertStream s token
    generalize db.insertStream s token = a at hstream ⊢
    generalize db'.insertStream s (τ token) = b at hstream ⊢
    cases hstream with
    | none => exact .inr ⟨_, rfl, rfl⟩
    | some hd =>
      have hviewer := hd.insertViewer hσ viewer
      dsimp only
      generalize Db.insertViewer _ viewer = a at hviewer ⊢
      generalize Db.insertViewer _ (viewer.reid σ) = b at hviewer ⊢
      cases hviewer with
      | none => exact .inr ⟨_, rfl, rfl⟩
      | some hd' => exact .inl ⟨_, _, rfl, rfl, hd'⟩

theorem viewerAdd (v : StreamViewer) :
    (∃ d d', db.viewerAdd v = .ok d ∧ db'.viewerAdd (v.reid σ) = .ok d' ∧ Renamed σ τ d d') ∨
    ∃ e, db.viewerAdd v = .error e ∧ db'.viewerAdd (v.reid σ) = .error e := by
  have hparent : db'.parentAvailable (v.reid σ).streamId = db.parentAvailable v.streamId :=
    h.parentAvailable v.streamId
  unfold Db.viewerAdd
  rw [h.viewerKeyTaken, hparent]
  split_ifs
  · exact .inr ⟨_, rfl, rfl⟩
  · exact .inr ⟨_, rfl, rfl⟩
  · have hviewer := h.insertViewer hσ v
    generalize db.insertViewer v = a at hviewer ⊢
    generalize db'.insertViewer (v.reid σ) = b at hviewer ⊢
    cases hviewer with
    | none => exact .inr ⟨_, rfl, rfl⟩
    | some hd => exact .inl ⟨_, _, rfl, rfl, hd⟩

theorem viewerDeleteIfNotLast (streamId viewerId : String) :
    (db'.viewerDeleteIfNotLast streamId (σ viewerId)).2 =
        (db.viewerDeleteIfNotLast streamId viewerId).2 ∧
      Renamed σ τ (db.viewerDeleteIfNotLast streamId viewerId).1
        (db'.viewerDeleteIfNotLast streamId (σ viewerId)).1 := by
  have hdelete := h.viewerDelete hσ streamId viewerId
  have hfound : (db'.viewerDelete streamId (σ viewerId)).2 =
      (db.viewerDelete streamId viewerId).2 := h.viewerExists hσ streamId viewerId
  unfold Db.viewerDeleteIfNotLast
  rw [h.viewerExists hσ, h.viewerCount]
  split_ifs
  · exact ⟨rfl, h⟩
  · exact ⟨rfl, h⟩
  · generalize db.viewerDelete streamId viewerId = a at hdelete hfound ⊢
    generalize db'.viewerDelete streamId (σ viewerId) = b at hdelete hfound ⊢
    obtain ⟨d, found⟩ := a
    obtain ⟨d', found'⟩ := b
    obtain rfl : found' = found := hfound
    cases found'
    · exact ⟨rfl, hdelete⟩
    · exact ⟨rfl, hdelete⟩

theorem standaloneCall (hτ : Function.Injective τ) {c c' : CoordCall}
    (hc : CoordCall.Renamed σ τ c c') :
    (standaloneCall db' c').2 = CoordResult.reid σ (standaloneCall db c).2 ∧
      Renamed σ τ (standaloneCall db c).1 (standaloneCall db' c').1 := by
  cases hc with
  | @createStream stream g g' hid htoken =>
    have hviewer : stream.defaultViewer g'.viewerId =
        (stream.defaultViewer g.viewerId).reid σ := by
      rw [hid]
      rfl
    simp only [RtmpServer.standaloneCall, Db.streamAdd, hviewer, htoken]
    obtain ⟨d, d', hd, hd', hrenamed⟩ | ⟨e, he, he'⟩ :=
      h.streamAddWithViewer hσ stream (stream.defaultViewer g.viewerId) g.deleteToken
    · rw [hd, hd']
      exact ⟨rfl, hrenamed⟩
    · rw [he, he']
      cases e
      · exact ⟨rfl, h⟩
      · exact ⟨rfl, h⟩
  | beginDeleteStreamExpecting id createdAt token =>
    have hmatches := Db.disableMatches_retoken hτ id createdAt token
    have hflags := h.setStreamFlags hmatches false true
    have hany : db'.streams.any (Db.disableMatches id createdAt (token.map τ)) =
        db.streams.any (Db.disableMatches id createdAt token) := by
      rw [h.streams]
      exact any_map_of_eq hmatches _
    simp only [RtmpServer.standaloneCall, Db.streamDisableExpecting, hany, h.hasStream]
    split_ifs
    · exact ⟨rfl, hflags⟩
    · exact ⟨rfl, hflags⟩
    · exact ⟨rfl, hflags⟩
  | finalizeDeleteStream id =>
    obtain ⟨hdeleted, hrows⟩ := h.streamDeleteIfPending id
    simp only [RtmpServer.standaloneCall]
    generalize db.streamDeleteIfPending id = a at hdeleted hrows ⊢
    generalize db'.streamDeleteIfPending id = b at hdeleted hrows ⊢
    obtain ⟨d, deleted⟩ := a
    obtain ⟨d', deleted'⟩ := b
    obtain rfl : deleted' = deleted := hdeleted
    cases deleted'
    · refine ⟨?_, hrows⟩
      show error _ = error _
      rw [Renamed.streamGet hrows]
    · exact ⟨rfl, hrows⟩
  | setStreamEnabled id enabled =>
    have hflags := h.setStreamFlags (p := fun r => r.id = id) (q := fun r => r.id = id)
      (fun _ => rfl) enabled false
    simp only [RtmpServer.standaloneCall, Db.streamSetEnabled, h.hasStream]
    cases db.hasStream id
    · refine ⟨?_, hflags⟩
      show error _ = error _
      rw [hflags.streamGet]
    · exact ⟨rfl, hflags⟩
  | createViewer viewer =>
    simp only [RtmpServer.standaloneCall]
    obtain ⟨d, d', hd, hd', hrenamed⟩ | ⟨e, he, he'⟩ := h.viewerAdd hσ viewer
    · rw [hd, hd']
      exact ⟨rfl, hrenamed⟩
    · rw [he, he']
      cases e
      · exact ⟨rfl, h⟩
      · exact ⟨rfl, h⟩
      · exact ⟨rfl, h⟩
  | deleteViewer streamId viewerId =>
    obtain ⟨hresult, hrows⟩ := h.viewerDeleteIfNotLast hσ streamId viewerId
    simp only [RtmpServer.standaloneCall]
    generalize db.viewerDeleteIfNotLast streamId viewerId = a at hresult hrows ⊢
    generalize db'.viewerDeleteIfNotLast streamId (σ viewerId) = b at hresult hrows ⊢
    obtain ⟨d, result⟩ := a
    obtain ⟨d', result'⟩ := b
    obtain rfl : result' = result := hresult
    cases result'
    · exact ⟨rfl, hrows⟩
    · exact ⟨rfl, hrows⟩
    · exact ⟨rfl, hrows⟩

end Renamed

/-! ### One call, on both -/

def Db.holdsPlayKey (db : Db) (streamId viewerId : String) : Bool :=
  (db.streamGet streamId).any fun stream =>
    db.viewers.any fun v => v.streamId = streamId ∧ v.id = viewerId ∧ v.playKey = stream.playKey

/-- The default viewer cannot be inserted next to a stream that can. -/
def Db.defaultViewerCollides (db : Db) (stream : Stream) (viewerId : String) : Bool :=
  db.streamKeysInUse stream = false ∧ db.streamConstraintViolated stream = false ∧
    db.viewerConstraintViolated (stream.defaultViewer viewerId) = true

def CoordCall.alike (db : Db) : CoordCall → Bool
  | .createStream stream generated => !db.defaultViewerCollides stream generated.viewerId
  | .deleteViewer streamId viewerId =>
    !(db.holdsPlayKey streamId viewerId && 1 < db.viewerCount streamId)
  | _ => true

theorem Db.length_viewerList (db : Db) (streamId : String) :
    (db.viewerList streamId).length = db.viewerCount streamId := by
  rw [viewerList, orderByCreatedAt, length_insertionSort, viewerCount, countP_eq_length_filter]

theorem Db.any_viewerList (db : Db) (streamId : String) (p : StreamViewer → Bool) :
    (db.viewerList streamId).any p = db.viewers.any fun v => decide (v.streamId = streamId) && p v := by
  rw [viewerList, orderByCreatedAt, any_perm (perm_insertionSort _ _), any_filter]

theorem Db.viewerCount_pos {db : Db} {streamId viewerId : String}
    (h : db.viewerExists streamId viewerId) : 0 < db.viewerCount streamId := by
  obtain ⟨v, hv, hmatch⟩ := any_eq_true.1 h
  exact countP_pos_iff.2 ⟨v, hv, decide_eq_true (of_decide_eq_true hmatch).1⟩

theorem Db.viewerExists_of_holdsPlayKey {db : Db} {streamId viewerId : String}
    (h : db.holdsPlayKey streamId viewerId) : db.viewerExists streamId viewerId = true := by
  unfold holdsPlayKey at h
  cases hstream : db.streamGet streamId with
  | none =>
    rw [hstream] at h
    cases h
  | some stream =>
    rw [hstream] at h
    obtain ⟨v, hv, hmatch⟩ := any_eq_true.1 h
    obtain ⟨hstreamId, hid, -⟩ := of_decide_eq_true hmatch
    exact any_eq_true.2 ⟨v, hv, decide_eq_true ⟨hstreamId, hid⟩⟩

section DeleteViewer

variable (db : Db) (streamId viewerId : String)

theorem any_viewerList_id :
    (db.viewerList streamId).any (fun v => v.id = viewerId) = db.viewerExists streamId viewerId := by
  rw [Db.any_viewerList, Db.viewerExists]
  simp

theorem any_viewerList_playKey :
    ((db.streamGet streamId).any fun stream =>
      (db.viewerList streamId).any fun v => v.id = viewerId ∧ v.playKey = stream.playKey) =
      db.holdsPlayKey streamId viewerId := by
  simp only [Db.any_viewerList, Db.holdsPlayKey]
  simp

theorem deleteViewer_refuses (h : db.viewerCount streamId = 1 ∧ db.viewerExists streamId viewerId ∨
    db.holdsPlayKey streamId viewerId) :
    deleteViewer db streamId viewerId = ⟨db, .conflict, []⟩ := by
  unfold deleteViewer
  simp only [Db.length_viewerList, any_viewerList_id, any_viewerList_playKey]
  by_cases hlast : db.viewerCount streamId = 1 ∧ db.viewerExists streamId viewerId = true
  · rw [if_pos hlast]
  · rw [if_neg hlast, if_pos (h.resolve_left hlast)]

theorem deleteViewer_deletes
    (hlast : ¬ (db.viewerCount streamId = 1 ∧ db.viewerExists streamId viewerId))
    (hplay : ¬ db.holdsPlayKey streamId viewerId) :
    (deleteViewer db streamId viewerId).response =
        (if db.viewerExists streamId viewerId = true then .ok else .notFound) ∧
      (deleteViewer db streamId viewerId).db.toTables =
        (db.viewerDelete streamId viewerId).1.toTables := by
  have hfound : (db.viewerDelete streamId viewerId).2 = db.viewerExists streamId viewerId := rfl
  unfold deleteViewer
  simp only [Db.length_viewerList, any_viewerList_id, any_viewerList_playKey]
  rw [if_neg hlast, if_neg hplay]
  generalize db.viewerDelete streamId viewerId = a at hfound ⊢
  obtain ⟨d, found⟩ := a
  obtain rfl : found = db.viewerExists streamId viewerId := hfound
  cases db.viewerExists streamId viewerId
  · exact ⟨rfl, rfl⟩
  · exact ⟨rfl, rfl⟩

theorem viewerDelete_of_not_exists (h : db.viewerExists streamId viewerId = false) :
    (db.viewerDelete streamId viewerId).1 = db := by
  have hnone : ∀ v ∈ db.viewers, decide (v.streamId = streamId ∧ v.id = viewerId) = false := by
    intro v hv
    have hnot := any_eq_false.1 h v hv
    simpa using hnot
  show { db with viewers := deleteWhere _ db.viewers } = db
  rw [deleteWhere_of_none hnone]

end DeleteViewer

theorem createToken_generated (stream : Stream) (generated : Generated) :
    createToken stream generated.deleteToken = generated.deleteToken :=
  if_neg generated.token_ne_empty

theorem clusterCall_createStream (index : UInt64) (db : Db) (stream : Stream)
    (generated : Generated) :
    (clusterCall (index, db) (.createStream stream generated)).1.2 =
        (standaloneCall db (.createStream stream generated)).1 ∧
      ((clusterCall (index, db) (.createStream stream generated)).2 =
        (standaloneCall db (.createStream stream generated)).2 ↔
          db.defaultViewerCollides stream generated.viewerId = false) := by
  have hdb := @Db.streamAddWithViewerWithToken_eq_db db stream
    (stream.defaultViewer generated.viewerId) generated.deleteToken
  have hcollides : db.streamAddWithViewerWithToken stream (stream.defaultViewer generated.viewerId)
      generated.deleteToken = .error .db ↔
        db.defaultViewerCollides stream generated.viewerId = true := by
    rw [hdb, Db.defaultViewerCollides, decide_eq_true_iff]
    simp [Stream.defaultViewer]
  simp only [clusterCall, CoordCall.command, applyNormal, applyCommand, createToken_generated,
    standaloneCall, Db.streamAdd]
  rw [← Bool.not_eq_true, ← hcollides]
  generalize db.streamAddWithViewerWithToken stream (stream.defaultViewer generated.viewerId)
    generated.deleteToken = r
  cases r with
  | ok db' => exact ⟨rfl, iff_of_true rfl (fun h => by cases h)⟩
  | error e =>
    cases e with
    | duplicate => exact ⟨rfl, iff_of_true rfl (fun h => by cases h)⟩
    | db => exact ⟨rfl, iff_of_false (fun h => by cases h) (fun h => h rfl)⟩

theorem clusterCall_deleteViewer (index : UInt64) (db : Db) (streamId viewerId : String) :
    ((clusterCall (index, db) (.deleteViewer streamId viewerId)).2 =
        (standaloneCall db (.deleteViewer streamId viewerId)).2 ↔
      (CoordCall.deleteViewer streamId viewerId).alike db) ∧
    ((CoordCall.deleteViewer streamId viewerId).alike db →
      (clusterCall (index, db) (.deleteViewer streamId viewerId)).1.2.toTables =
        (standaloneCall db (.deleteViewer streamId viewerId)).1.toTables) := by
  have hcluster : clusterCall (index, db) (.deleteViewer streamId viewerId) =
      ((index + 1, (deleteViewer db streamId viewerId).db),
        (deleteViewer db streamId viewerId).response.intoCoordResult.map fun _ => none) := rfl
  have hdeleted : (db.viewerDelete streamId viewerId).2 = db.viewerExists streamId viewerId := rfl
  rw [hcluster]
  simp only [standaloneCall, Db.viewerDeleteIfNotLast, CoordCall.alike]
  by_cases hexists : db.viewerExists streamId viewerId = true
  · have hpos := Db.viewerCount_pos hexists
    rw [if_neg (by simp [hexists])]
    by_cases hlast : db.viewerCount streamId ≤ 1
    · have hone : db.viewerCount streamId = 1 := by omega
      rw [if_pos hlast, deleteViewer_refuses db streamId viewerId (.inl ⟨hone, hexists⟩)]
      simp [hone, ClusterResponse.intoCoordResult, Except.map]
    · rw [if_neg hlast]
      generalize hd : db.viewerDelete streamId viewerId = d at hdeleted ⊢
      obtain ⟨db', found⟩ := d
      obtain rfl : found = db.viewerExists streamId viewerId := hdeleted
      rw [hexists]
      by_cases hplay : db.holdsPlayKey streamId viewerId = true
      · rw [deleteViewer_refuses db streamId viewerId (.inr hplay)]
        simp [hplay, not_le.1 hlast, ClusterResponse.intoCoordResult, Except.map]
      · obtain ⟨hresponse, hrows⟩ := deleteViewer_deletes db streamId viewerId
          (fun h => hlast h.1.le) hplay
        rw [hresponse, if_pos hexists, hrows, hd]
        simp [hplay, ClusterResponse.intoCoordResult, Except.map]
  · have hnone : db.viewerExists streamId viewerId = false := by simpa using hexists
    have hplay : ¬ db.holdsPlayKey streamId viewerId = true :=
      fun h => hexists (Db.viewerExists_of_holdsPlayKey h)
    obtain ⟨hresponse, hrows⟩ := deleteViewer_deletes db streamId viewerId
      (fun h => hexists h.2) hplay
    rw [if_pos hnone, hresponse, if_neg hexists, hrows,
      viewerDelete_of_not_exists db streamId viewerId hnone]
    simp [hplay, ClusterResponse.intoCoordResult, Except.map]

theorem clusterCall_iff_of_eq {index : UInt64} {db : Db} {call : CoordCall}
    (hcall : ((clusterCall (index, db) call).1.2, (clusterCall (index, db) call).2) =
      standaloneCall db call) (halike : call.alike db) :
    ((clusterCall (index, db) call).2 = (standaloneCall db call).2 ↔ call.alike db) ∧
    (call.alike db →
      (clusterCall (index, db) call).1.2.toTables = (standaloneCall db call).1.toTables) := by
  rw [← hcall]
  exact ⟨iff_of_true rfl halike, fun _ => rfl⟩

/-- What the two coordinators make of one call on the same tables. -/
theorem clusterCall_iff (index : UInt64) (db : Db) (call : CoordCall) :
    ((clusterCall (index, db) call).2 = (standaloneCall db call).2 ↔ call.alike db) ∧
    (call.alike db →
      (clusterCall (index, db) call).1.2.toTables = (standaloneCall db call).1.toTables) := by
  cases call with
  | createStream stream generated =>
    obtain ⟨hrows, hresult⟩ := clusterCall_createStream index db stream generated
    refine ⟨?_, fun _ => congrArg Db.toTables hrows⟩
    rw [hresult, CoordCall.alike, Bool.not_eq_true']
  | deleteViewer streamId viewerId => exact clusterCall_deleteViewer index db streamId viewerId
  | beginDeleteStreamExpecting id createdAt token =>
    refine clusterCall_iff_of_eq ?_ rfl
    simp only [clusterCall, CoordCall.command, applyNormal, applyCommand, standaloneCall]
    generalize db.streamDisableExpecting id createdAt token = r
    obtain ⟨db', outcome⟩ := r
    cases outcome <;> rfl
  | finalizeDeleteStream id =>
    refine clusterCall_iff_of_eq ?_ rfl
    simp only [clusterCall, CoordCall.command, applyNormal, applyCommand, standaloneCall]
    generalize db.streamDeleteIfPending id = r
    obtain ⟨db', deleted⟩ := r
    cases deleted with
    | true => rfl
    | false =>
      dsimp only
      split_ifs <;> rfl
  | setStreamEnabled id enabled =>
    have hget := Db.isSome_streamGet_setStreamFlags db (fun r => r.id = id) enabled false id
    refine clusterCall_iff_of_eq ?_ rfl
    simp only [clusterCall, CoordCall.command, setStreamEnabled_response, setStreamEnabled_db,
      standaloneCall, Db.streamSetEnabled]
    cases hstream : db.hasStream id with
    | true => rfl
    | false =>
      dsimp only
      rw [hget, hstream]
      rfl
  | createViewer viewer =>
    have hdb : db.viewerAdd viewer ≠ .error .db := Db.viewerAdd_ne_db
    refine clusterCall_iff_of_eq ?_ rfl
    simp only [clusterCall, CoordCall.command, applyNormal, applyCommand, standaloneCall]
    generalize db.viewerAdd viewer = r at hdb
    cases r with
    | ok db' => rfl
    | error e =>
      cases e with
      | duplicate => rfl
      | parentUnavailable => rfl
      | db => exact absurd rfl hdb

/-! ### Sequences of calls -/

/-- Every call of the sequence is treated alike in the state the calls before it leave. -/
def alikeAlong : Db → List CoordCall → Bool
  | _, [] => true
  | db, call :: calls => call.alike db && alikeAlong (standaloneCall db call).1 calls

section Runs

variable {σ τ : String → String} (hσ : Function.Injective σ)

theorem Renamed.of_toTables {db db' db'' : Db} (h : Renamed σ τ db db')
    (hrows : db''.toTables = db'.toTables) : Renamed σ τ db db'' := by
  have hstreams : db''.streams = db'.streams := by rw [hrows]
  have hviewers : db''.viewers = db'.viewers := by rw [hrows]
  exact ⟨hstreams.trans h.streams, hviewers.trans h.viewers⟩

include hσ

theorem Renamed.alike {db db' : Db} (h : Renamed σ τ db db') {c c' : CoordCall}
    (hc : CoordCall.Renamed σ τ c c') : c'.alike db' = c.alike db := by
  cases hc with
  | @createStream stream g g' hid htoken =>
    have hviewer : stream.defaultViewer g'.viewerId =
        (stream.defaultViewer g.viewerId).reid σ := by
      rw [hid]
      rfl
    simp only [CoordCall.alike, Db.defaultViewerCollides, hviewer, h.streamKeysInUse,
      h.streamConstraintViolated, h.viewerConstraintViolated hσ]
  | deleteViewer streamId viewerId =>
    have hholds : db'.holdsPlayKey streamId (σ viewerId) = db.holdsPlayKey streamId viewerId := by
      unfold Db.holdsPlayKey
      rw [h.streamGet]
      congr 1
      funext stream
      rw [h.viewers]
      refine any_map_of_eq (fun v => ?_) _
      simp [StreamViewer.reid, hσ.eq_iff]
    simp only [CoordCall.alike, hholds, h.viewerCount]
  | beginDeleteStreamExpecting => rfl
  | finalizeDeleteStream => rfl
  | setStreamEnabled => rfl
  | createViewer => rfl

/-- **The two coordinators agree, but for the default play key.** A sequence of calls returns the
same results and leaves the same rows on both sides, up to generated names, exactly if no call
deletes the viewer with the stream's play key beside others, and no new stream comes with a default
viewer that collides with a stored one. -/
theorem coordinators_agree (hτ : Function.Injective τ) (db db' : Db) (h : Renamed σ τ db db')
    (index : UInt64) (calls calls' : List CoordCall)
    (hcalls : List.Forall₂ (CoordCall.Renamed σ τ) calls calls') :
    ((runCalls clusterCall (index, db') calls').2 =
        (runCalls standaloneCall db calls).2.map (CoordResult.reid σ) ∧
      Renamed σ τ (runCalls standaloneCall db calls).1
        (runCalls clusterCall (index, db') calls').1.2) ↔
      alikeAlong db calls = true := by
  induction hcalls generalizing db db' index with
  | nil => exact iff_of_true ⟨rfl, h⟩ rfl
  | @cons c c' calls calls' hc _ ih =>
    obtain ⟨hresult, hrows⟩ := h.standaloneCall hσ hτ hc
    obtain ⟨hiff, htables⟩ := clusterCall_iff index db' c'
    rw [h.alike hσ hc] at hiff htables
    rw [hresult] at hiff
    simp only [runCalls, alikeAlong, map_cons, cons.injEq, Bool.and_eq_true]
    rw [hiff, and_assoc]
    refine and_congr_right fun halike => ?_
    exact ih _ _ (hrows.of_toTables (htables halike)) _

end Runs

def createCalls (viewerId deleteToken : String) (h : deleteToken ≠ "") : List CoordCall :=
  [.createStream keyedStream ⟨viewerId, deleteToken, h⟩, .createViewer keyedViewer]

/-- The two sides generate other names; the second viewer is deleted again on both. -/
theorem coordinators_agree_second_viewer :
    alikeAlong .empty (createCalls "a" "s" (by decide) ++ [CoordCall.deleteViewer "s" "v2"]) = true ∧
      Renamed (Equiv.swap "a" "b") (Equiv.swap "s" "t")
        (runCalls standaloneCall .empty
          (createCalls "a" "s" (by decide) ++ [CoordCall.deleteViewer "s" "v2"])).1
        (runCalls clusterCall (1, .empty)
          (createCalls "b" "t" (by decide) ++ [CoordCall.deleteViewer "s" "v2"])).1.2 := by
  have halike : alikeAlong .empty
      (createCalls "a" "s" (by decide) ++ [CoordCall.deleteViewer "s" "v2"]) = true := by decide +kernel
  have hcalls : List.Forall₂ (CoordCall.Renamed (Equiv.swap "a" "b") (Equiv.swap "s" "t"))
      (createCalls "a" "s" (by decide) ++ [CoordCall.deleteViewer "s" "v2"])
      (createCalls "b" "t" (by decide) ++ [CoordCall.deleteViewer "s" "v2"]) :=
    .cons (.createStream _ (by decide) (by decide))
      (.cons (.createViewer keyedViewer) (.cons (.deleteViewer "s" "v2") .nil))
  exact ⟨halike, ((coordinators_agree (Equiv.injective _) (Equiv.injective _) .empty .empty
    ⟨rfl, rfl⟩ 1 _ _ hcalls).2 halike).2⟩

/-- The viewer with the stream's play key: one side deletes it, the other refuses. -/
theorem default_viewer_deleted_standalone :
    (runCalls standaloneCall .empty
        (createCalls "v1" "t" (by decide) ++ [CoordCall.deleteViewer "s" "v1"])).2 =
      [.ok (some keyedDefaultViewer), .ok none, .ok none] ∧
    (runCalls clusterCall (1, .empty)
        (createCalls "v1" "t" (by decide) ++ [CoordCall.deleteViewer "s" "v1"])).2 =
      [.ok (some keyedDefaultViewer), .ok none, .error .conflict] ∧
    (runCalls standaloneCall .empty
        (createCalls "v1" "t" (by decide) ++ [CoordCall.deleteViewer "s" "v1"])).1.viewers =
          [keyedViewer] ∧
    (runCalls clusterCall (1, .empty)
        (createCalls "v1" "t" (by decide) ++ [CoordCall.deleteViewer "s" "v1"])).1.2.viewers =
      [keyedDefaultViewer, keyedViewer] := by
  refine ⟨?_, ?_, ?_, ?_⟩
  · rfl
  · rfl
  · decide +kernel
  · decide +kernel

end RtmpServer
