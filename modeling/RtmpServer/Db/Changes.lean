import RtmpServer.Db.Operations
import RtmpServer.Lib.Replay

/-!
# What the operations can do to the rows

A `Change` is one SQL write, and `Change.run` performs it; inserts fail on a constraint. Every
operation is a replay of changes, so an invariant of the database is proved once for each kind of
change (`SchemaOk.run`) and reaches all operations through `Reaches`.
-/

namespace RtmpServer

open Lib.Table Lib.Replay Option
open Bool hiding eq_iff_iff not_and not_or

variable {db db' : Db}

inductive Change where
  | insertStream (s : Stream) (deleteToken : String)
  | insertViewer (v : StreamViewer)
  | insertOwner (o : OwnerRow)
  | setStreamFlags (p : StreamRow → Bool) (enabled pendingDelete : Bool)
  | deleteStream (id : String)
  | deleteViewers (p : StreamViewer → Bool)
  | deactivatePlayers (viewerId : String)
  | updateOwner (streamId : String) (epoch : Int64) (acquiredAt : Int)
  | deleteOwners (p : OwnerRow → Bool)
  | setApiToken (token : String)
  | setClusterId (id : String)

/-- The write itself; nothing when an insert violates a constraint. -/
def Change.run (db : Db) : Change → Option Db
  | .insertStream s deleteToken => db.insertStream s deleteToken
  | .insertViewer v => db.insertViewer v
  | .insertOwner o => db.insertOwner o
  | .setStreamFlags p enabled pendingDelete => some (db.setStreamFlags p enabled pendingDelete)
  | .deleteStream id => some (db.streamDeleteIfPending id).1
  | .deleteViewers p => some { db with viewers := deleteWhere p db.viewers }
  | .deactivatePlayers viewerId => some (db.playersDeactivateForViewer viewerId)
  | .updateOwner streamId epoch acquiredAt =>
    some { db with
      owners := updateWhere (fun r => r.streamId = streamId)
        (fun r => { r with epoch := epoch, acquiredAt := acquiredAt }) db.owners }
  | .deleteOwners p => some (db.deleteOwners p)
  | .setApiToken token => some (db.tokenReplace token)
  | .setClusterId id => some (db.clusterIdSet id)

def Reaches (P : Change → Prop) (db db' : Db) : Prop :=
  ∃ cs : List Change, (∀ c ∈ cs, P c) ∧ replay Change.run db cs = some db'

namespace Reaches

variable {P Q : Change → Prop} {db db' db'' : Db}

theorem refl (P : Change → Prop) (db : Db) : Reaches P db db := ⟨[], by simp, rfl⟩

theorem single (c : Change) (hc : P c) (h : c.run db = some db') : Reaches P db db' :=
  ⟨[c], by simpa using hc, by simp [h]⟩

theorem trans (h : Reaches P db db') (h' : Reaches P db' db'') : Reaches P db db'' := by
  obtain ⟨cs, hcs, hr⟩ := h
  obtain ⟨cs', hcs', hr'⟩ := h'
  refine ⟨cs ++ cs', fun c hc => ?_, replay_append_eq_some.2 ⟨db', hr, hr'⟩⟩
  rcases List.mem_append.1 hc with hc | hc
  · exact hcs c hc
  · exact hcs' c hc

theorem mono (hPQ : ∀ c, P c → Q c) (h : Reaches P db db') : Reaches Q db db' := by
  obtain ⟨cs, hcs, hr⟩ := h
  exact ⟨cs, fun c hc => hPQ c (hcs c hc), hr⟩

theorem inv {I : Db → Prop} (hI : ∀ db c db', P c → I db → c.run db = some db' → I db')
    (h : Reaches P db db') (hdb : I db) : I db' := by
  obtain ⟨cs, hcs, hr⟩ := h
  exact replay_inv (fun s c s' hc hs hrun => hI s c s' (hcs c hc) hs hrun) hdb hr

end Reaches

/-! ### The inserts -/

namespace Db

variable {db db' : Db}

theorem insertStream_eq_some {s : Stream} {token : String} :
    db.insertStream s token = some db' ↔
      (∀ r ∈ db.streams, r.id ≠ s.id ∧ r.publishKey ≠ s.publishKey ∧ r.playKey ≠ s.playKey ∧
        r.statsKey ≠ s.statsKey) ∧
      db' = { db with streams := db.streams ++ [⟨s, false, token⟩] } := by
  unfold insertStream
  by_cases h : db.streamConstraintViolated s = true
  · rw [if_pos h]
    refine ⟨nofun, fun ⟨hne, _⟩ => ?_⟩
    obtain ⟨r, hr, hor⟩ := List.any_eq_true.1 h
    have := hne r hr
    simp only [decide_eq_true_eq] at hor
    tauto
  · rw [if_neg h, some.injEq]
    simp only [streamConstraintViolated, List.any_eq_true, not_exists, not_and,
      decide_eq_true_eq, not_or] at h
    exact ⟨fun h' => ⟨h, h'.symm⟩, fun h' => h'.2.symm⟩

theorem hasStream_iff {id : String} : db.hasStream id ↔ ∃ s ∈ db.streams, s.id = id := by
  simp [hasStream]

theorem insertViewer_eq_some {v : StreamViewer} :
    db.insertViewer v = some db' ↔
      (∀ r ∈ db.viewers, r.id ≠ v.id ∧ r.playKey ≠ v.playKey) ∧
      (∃ s ∈ db.streams, s.id = v.streamId) ∧
      db' = { db with viewers := db.viewers ++ [v] } := by
  unfold insertViewer
  by_cases h : (db.viewerConstraintViolated v || !db.hasStream v.streamId) = true
  · rw [if_pos h]
    refine ⟨nofun, fun ⟨hne, hs, _⟩ => ?_⟩
    rw [or_eq_true, not_eq_true', eq_false_iff] at h
    rcases h with h | h
    · obtain ⟨r, hr, hor⟩ := List.any_eq_true.1 h
      have := hne r hr
      simp only [decide_eq_true_eq] at hor
      tauto
    · exact absurd (hasStream_iff.2 hs) h
  · rw [if_neg h, some.injEq]
    simp only [or_eq_true, not_eq_true', not_or, not_eq_false] at h
    obtain ⟨hv, hs⟩ := h
    simp only [viewerConstraintViolated, List.any_eq_true, not_exists, not_and,
      decide_eq_true_eq, not_or] at hv
    exact ⟨fun h' => ⟨hv, hasStream_iff.1 hs, h'.symm⟩, fun h' => h'.2.2.symm⟩

theorem insertOwner_eq_some {o : OwnerRow} :
    db.insertOwner o = some db' ↔
      (∀ r ∈ db.owners, r.streamId ≠ o.streamId) ∧
      (∃ s ∈ db.streams, s.id = o.streamId) ∧
      db' = { db with owners := db.owners ++ [o] } := by
  unfold insertOwner
  by_cases h : (db.owners.any (fun r => r.streamId = o.streamId) ||
      !db.hasStream o.streamId) = true
  · rw [if_pos h]
    refine ⟨nofun, fun ⟨hne, hs, _⟩ => ?_⟩
    rw [or_eq_true, not_eq_true', eq_false_iff] at h
    rcases h with h | h
    · obtain ⟨r, hr, heq⟩ := List.any_eq_true.1 h
      exact absurd (of_decide_eq_true heq) (hne r hr)
    · exact absurd (hasStream_iff.2 hs) h
  · rw [if_neg h, some.injEq]
    simp only [or_eq_true, not_eq_true', not_or, not_eq_false] at h
    obtain ⟨hv, hs⟩ := h
    simp only [List.any_eq_true, not_exists, not_and, decide_eq_true_eq] at hv
    exact ⟨fun h' => ⟨hv, hasStream_iff.1 hs, h'.symm⟩, fun h' => h'.2.2.symm⟩

end Db

/-! ### Every change keeps the schema -/

theorem Db.exists_setStreamFlags {db : Db} (p : StreamRow → Bool) (enabled pendingDelete : Bool)
    {id : String} (h : ∃ s ∈ db.streams, s.id = id) :
    ∃ s ∈ (db.setStreamFlags p enabled pendingDelete).streams, s.id = id := by
  obtain ⟨s, hs, rfl⟩ := h
  refine ⟨_, mem_updateWhere.2 ⟨s, hs, rfl⟩, ?_⟩
  split_ifs <;> rfl

theorem SchemaOk.insertStream (h : SchemaOk db) {s : Stream} {token : String}
    (hi : db.insertStream s token = some db') : SchemaOk db' := by
  obtain ⟨hne, rfl⟩ := Db.insertStream_eq_some.1 hi
  have parent {id : String} (hp : ∃ s ∈ db.streams, s.id = id) :
      ∃ r ∈ db.streams ++ [(⟨s, false, token⟩ : StreamRow)], r.id = id := by
    obtain ⟨r, hr, hid⟩ := hp
    exact ⟨r, List.mem_append_left _ hr, hid⟩
  exact { h with
    streamId := h.streamId.append fun r hr => (hne r hr).1
    publishKey := h.publishKey.append fun r hr => (hne r hr).2.1
    playKey := h.playKey.append fun r hr => (hne r hr).2.2.1
    statsKey := h.statsKey.append fun r hr => (hne r hr).2.2.2
    viewerParent := fun v hv => parent (h.viewerParent v hv)
    ownerParent := fun o ho => parent (h.ownerParent o ho)
    publisherParent := fun q hq => parent (h.publisherParent q hq)
    playerParent := fun q hq => parent (h.playerParent q hq) }

theorem SchemaOk.insertViewer (h : SchemaOk db) {v : StreamViewer}
    (hi : db.insertViewer v = some db') : SchemaOk db' := by
  obtain ⟨hne, hs, rfl⟩ := Db.insertViewer_eq_some.1 hi
  exact { h with
    viewerId := h.viewerId.append fun r hr => (hne r hr).1
    viewerKey := h.viewerKey.append fun r hr => (hne r hr).2
    viewerParent := by
      intro w hw
      rcases List.mem_append.1 hw with hw | hw
      · exact h.viewerParent w hw
      · rw [List.mem_singleton.1 hw]
        exact hs }

theorem SchemaOk.insertOwner (h : SchemaOk db) {o : OwnerRow} (hi : db.insertOwner o = some db') :
    SchemaOk db' := by
  obtain ⟨hne, hs, rfl⟩ := Db.insertOwner_eq_some.1 hi
  exact { h with
    ownerStream := h.ownerStream.append hne
    ownerParent := by
      intro r hr
      rcases List.mem_append.1 hr with hr | hr
      · exact h.ownerParent r hr
      · rw [List.mem_singleton.1 hr]
        exact hs }

theorem SchemaOk.setStreamFlags {db : Db} (h : SchemaOk db) (p : StreamRow → Bool)
    (enabled pendingDelete : Bool) : SchemaOk (db.setStreamFlags p enabled pendingDelete) :=
  { h with
    streamId := h.streamId.updateWhere p fun _ => rfl
    publishKey := h.publishKey.updateWhere p fun _ => rfl
    playKey := h.playKey.updateWhere p fun _ => rfl
    statsKey := h.statsKey.updateWhere p fun _ => rfl
    viewerParent := fun v hv => Db.exists_setStreamFlags _ _ _ (h.viewerParent v hv)
    ownerParent := fun o ho => Db.exists_setStreamFlags _ _ _ (h.ownerParent o ho)
    publisherParent := fun q hq => Db.exists_setStreamFlags _ _ _ (h.publisherParent q hq)
    playerParent := fun q hq => Db.exists_setStreamFlags _ _ _ (h.playerParent q hq) }

theorem SchemaOk.streamDeleteIfPending {db : Db} (h : SchemaOk db) (id : String) :
    SchemaOk (db.streamDeleteIfPending id).1 := by
  unfold Db.streamDeleteIfPending
  dsimp only
  split_ifs with hp
  · have parent {sid : String} (hsid : sid ≠ id) (hs : ∃ s ∈ db.streams, s.id = sid) :
        ∃ s ∈ deleteWhere (fun r : StreamRow => decide (r.id = id ∧ r.pendingDelete = true))
          db.streams, s.id = sid := by
      obtain ⟨s, hs, rfl⟩ := hs
      exact ⟨s, mem_deleteWhere.2 ⟨hs, by simp [hsid]⟩, rfl⟩
    constructor
    · exact h.streamId.deleteWhere _
    · exact h.publishKey.deleteWhere _
    · exact h.playKey.deleteWhere _
    · exact h.statsKey.deleteWhere _
    · exact h.viewerId.deleteWhere _
    · exact h.viewerKey.deleteWhere _
    · exact h.ownerStream.deleteWhere _
    · exact h.publisherId.deleteWhere _
    · exact h.playerId.deleteWhere _
    · intro v hv
      obtain ⟨hv, hne⟩ := mem_deleteWhere.1 hv
      exact parent (of_decide_eq_false hne) (h.viewerParent v hv)
    · intro o ho
      obtain ⟨ho, hne⟩ := mem_deleteWhere.1 ho
      exact parent (of_decide_eq_false hne) (h.ownerParent o ho)
    · intro q hq
      obtain ⟨hq, hne⟩ := mem_deleteWhere.1 hq
      exact parent (of_decide_eq_false hne) (h.publisherParent q hq)
    · intro q hq
      obtain ⟨hq, hne⟩ := mem_deleteWhere.1 hq
      exact parent (of_decide_eq_false hne) (h.playerParent q hq)
  · exact h

theorem SchemaOk.playersDeactivateForViewer {db : Db} (h : SchemaOk db) (viewerId : String) :
    SchemaOk (db.playersDeactivateForViewer viewerId) :=
  { h with
    playerId := h.playerId.updateWhere _ fun _ => rfl
    playerParent := by
      intro q hq
      obtain ⟨a, ha, rfl⟩ := mem_updateWhere.1 hq
      have := h.playerParent a ha
      split_ifs <;> exact this }

/-- **Every change keeps the schema.** -/
theorem SchemaOk.run (h : SchemaOk db) (c : Change) (hc : c.run db = some db') : SchemaOk db' := by
  cases c with
  | insertStream s token => exact h.insertStream hc
  | insertViewer v => exact h.insertViewer hc
  | insertOwner o => exact h.insertOwner hc
  | setStreamFlags p enabled pendingDelete =>
    cases hc
    exact h.setStreamFlags p enabled pendingDelete
  | deleteStream id =>
    cases hc
    exact h.streamDeleteIfPending id
  | deleteViewers p =>
    cases hc
    exact { h with
      viewerId := h.viewerId.deleteWhere p
      viewerKey := h.viewerKey.deleteWhere p
      viewerParent := fun v hv => h.viewerParent v (mem_of_mem_deleteWhere hv) }
  | deactivatePlayers viewerId =>
    cases hc
    exact h.playersDeactivateForViewer viewerId
  | updateOwner streamId epoch acquiredAt =>
    cases hc
    exact { h with
      ownerStream := h.ownerStream.updateWhere _ fun _ => rfl
      ownerParent := by
        intro o ho
        obtain ⟨a, ha, rfl⟩ := mem_updateWhere.1 ho
        have := h.ownerParent a ha
        split_ifs <;> exact this }
  | deleteOwners p =>
    cases hc
    exact { h with
      ownerStream := h.ownerStream.deleteWhere p
      ownerParent := fun o ho => h.ownerParent o (mem_of_mem_deleteWhere ho) }
  | setApiToken token =>
    cases hc
    exact { h with }
  | setClusterId id =>
    cases hc
    exact { h with }

theorem SchemaOk.reaches {P : Change → Prop} (h : SchemaOk db) (hr : Reaches P db db') :
    SchemaOk db' :=
  hr.inv (fun _ c _ _ hdb hc => hdb.run c hc) h

/-! ### The operations as changes -/

namespace Db

variable {db db' : Db}
variable {v : StreamViewer} {token : String} {s : Stream}

theorem streamInsertOnlyWithToken_eq_ok :
    db.streamInsertOnlyWithToken s token = .ok db' ↔
      db.streamKeysInUse s = false ∧ db.insertStream s token = some db' := by
  unfold streamInsertOnlyWithToken
  split_ifs with hk
  · simp [hk]
  · cases hi : db.insertStream s token <;> simp_all

theorem streamInsertOnlyWithToken_error {e : StreamAddError}
    (h : db.streamInsertOnlyWithToken s token = .error e) : e = .duplicate := by
  unfold streamInsertOnlyWithToken at h
  split_ifs at h with hk
  · cases h; rfl
  · cases hi : db.insertStream s token <;> simp_all

theorem streamAddWithViewerWithToken_eq_ok :
    db.streamAddWithViewerWithToken s v token = .ok db' ↔
      (v.streamId = s.id ∧ v.playKey = s.playKey) ∧ db.streamKeysInUse s = false ∧
        ∃ db₁, db.insertStream s token = some db₁ ∧ db₁.insertViewer v = some db' := by
  unfold streamAddWithViewerWithToken
  split_ifs with hm hk
  · simp; tauto
  · simp [hk]
  · have hm' : v.streamId = s.id ∧ v.playKey = s.playKey := by tauto
    cases hi : db.insertStream s token with
    | none => simp
    | some db₁ => cases hv : db₁.insertViewer v <;> simp_all

theorem viewerAdd_eq_ok :
    db.viewerAdd v = .ok db' ↔
      db.viewerKeyTaken v = false ∧ db.parentAvailable v.streamId ∧
        db.insertViewer v = some db' := by
  unfold viewerAdd
  split_ifs with hk hp
  · simp [hk]
  · simp_all
  · cases hi : db.insertViewer v <;> simp_all

theorem viewerAdd_eq_parentUnavailable :
    db.viewerAdd v = .error .parentUnavailable ↔
      db.viewerKeyTaken v = false ∧ db.parentAvailable v.streamId = false := by
  unfold viewerAdd
  split_ifs with hk hp
  · simp [hk]
  · simp_all
  · cases hi : db.insertViewer v <;> simp_all

theorem viewerAdd_ne_db : db.viewerAdd v ≠ .error .db := by
  unfold viewerAdd
  split_ifs with hk hp
  · simp
  · simp
  · cases hi : db.insertViewer v <;> simp

theorem streamRow_setStreamFlags (db : Db) (p : StreamRow → Bool) (enabled pendingDelete : Bool)
    (id : String) :
    (db.setStreamFlags p enabled pendingDelete).streamRow id =
      (db.streamRow id).map fun r => if p r then r.withFlags enabled pendingDelete else r := by
  have hf : ∀ r : StreamRow, (r.withFlags enabled pendingDelete).id = r.id := fun _ => rfl
  exact lookup_updateWhere hf db.streams id

theorem playKey_streamRow_setStreamFlags (db : Db) (p : StreamRow → Bool)
    (enabled pendingDelete : Bool) (id : String) :
    ((db.setStreamFlags p enabled pendingDelete).streamRow id).map (·.playKey) =
      (db.streamRow id).map (·.playKey) := by
  rw [streamRow_setStreamFlags, map_map]
  congr 1
  funext r
  by_cases h : p r = true <;> simp [h, StreamRow.withFlags]

theorem isSome_streamRow (db : Db) (id : String) : (db.streamRow id).isSome = db.hasStream id := by
  rw [Bool.eq_iff_iff]
  simp [streamRow, lookup, hasStream, List.find?_isSome]

/-- A stream that can have an owner: present, enabled and not being deleted. -/
def ownable (db : Db) (streamId : String) : Bool :=
  db.streams.any fun s => s.id = streamId ∧ s.enabled = true ∧ s.pendingDelete = false

/-- The outcomes of `stream_owner_acquire`. A grant replaces the stream's row, if it has one, and
leaves every other row. -/
inductive AcquireSpec (db : Db) (streamId : String) (nodeId epoch : UInt64) (acquiredAt : Int) :
    Except OwnerError (Db × UInt64) → Prop
  | notFound (h : db.ownable streamId = false) :
    AcquireSpec db streamId nodeId epoch acquiredAt (.error .notFound)
  | conflict (h : db.ownable streamId = true) (o : OwnerRow) (ho : o ∈ db.owners)
      (hs : o.streamId = streamId) (hn : o.ownerNodeId ≠ nodeId.toInt64) :
    AcquireSpec db streamId nodeId epoch acquiredAt (.error .conflict)
  | granted (h : db.ownable streamId = true)
      (hfree : ∀ o ∈ db.owners, o.streamId = streamId → o.ownerNodeId = nodeId.toInt64)
      (owners : List OwnerRow)
      (hrows : ∀ r, r ∈ owners ↔
        r = ⟨streamId, nodeId.toInt64, epoch.toInt64, acquiredAt⟩ ∨
          r ∈ db.owners ∧ r.streamId ≠ streamId) :
    AcquireSpec db streamId nodeId epoch acquiredAt (.ok ({ db with owners := owners }, epoch))

theorem streamRow_eq_some (hok : SchemaOk db) {id : String} {s : StreamRow} :
    db.streamRow id = some s ↔ s ∈ db.streams ∧ s.id = id :=
  hok.streamId.lookup_eq_some

theorem ownable_eq (hok : SchemaOk db) (streamId : String) :
    db.ownable streamId =
      (db.streamRow streamId).any fun s => s.enabled = true ∧ s.pendingDelete = false := by
  rw [Bool.eq_iff_iff]
  simp only [ownable, List.any_eq_true, decide_eq_true_eq, any_eq_true]
  constructor
  · rintro ⟨s, hs, hid, hen⟩
    exact ⟨s, (streamRow_eq_some hok).2 ⟨hs, hid⟩, hen⟩
  · rintro ⟨s, hs, hen⟩
    obtain ⟨hmem, hid⟩ := (streamRow_eq_some hok).1 hs
    exact ⟨s, hmem, hid, hen⟩

theorem toUInt64_ne_iff (x : Int64) (n : UInt64) : x.toUInt64 ≠ n ↔ x ≠ n.toInt64 := by
  constructor
  · rintro h rfl
    simp at h
  · rintro h rfl
    simp at h

theorem streamOwnerAcquire_spec (hok : SchemaOk db) (streamId : String) (nodeId epoch : UInt64)
    (acquiredAt : Int) :
    AcquireSpec db streamId nodeId epoch acquiredAt
      (db.streamOwnerAcquire streamId nodeId epoch acquiredAt) := by
  have hown := ownable_eq hok streamId
  unfold streamOwnerAcquire
  cases hrow : db.streamRow streamId with
  | none =>
    refine .notFound ?_
    rw [hown, hrow]
    rfl
  | some s =>
    rw [hrow] at hown
    dsimp only
    split_ifs with hs
    · have h : db.ownable streamId = true := by
        rw [hown]
        simpa using hs
      cases hl : lookup (·.streamId) db.owners streamId with
      | some o =>
        obtain ⟨ho, hsid⟩ := hok.ownerStream.lookup_eq_some.1 hl
        dsimp only
        split_ifs with hn
        · exact .conflict h o ho hsid ((toUInt64_ne_iff _ _).1 hn)
        · have hnode : o.ownerNodeId = nodeId.toInt64 := by
            by_contra hne
            exact hn ((toUInt64_ne_iff _ _).2 hne)
          -- the stream's row is `o` alone
          have honly : ∀ r ∈ db.owners, r.streamId = streamId → r = o := fun r hr hrs =>
            hok.ownerStream.eq_of_key hr ho (hrs.trans hsid.symm)
          refine .granted h (fun r hr hrs => honly r hr hrs ▸ hnode) _ fun r => ?_
          rw [mem_updateWhere]
          constructor
          · rintro ⟨a, ha, rfl⟩
            by_cases has : a.streamId = streamId
            · left
              rw [honly a ha has]
              simp [hsid, hnode]
            · right
              simp [has, ha]
          · rintro (rfl | ⟨hr, hne⟩)
            · exact ⟨o, ho, by simp [hsid, hnode]⟩
            · exact ⟨r, hr, by simp [hne]⟩
      | none =>
        have hnone := lookup_eq_none.1 hl
        have hstream : ∃ t ∈ db.streams, t.id = streamId := ⟨s, (streamRow_eq_some hok).1 hrow⟩
        have hi : db.insertOwner ⟨streamId, nodeId.toInt64, epoch.toInt64, acquiredAt⟩ =
            some { db with owners := db.owners ++
              [⟨streamId, nodeId.toInt64, epoch.toInt64, acquiredAt⟩] } :=
          insertOwner_eq_some.2 ⟨hnone, hstream, rfl⟩
        dsimp only
        rw [hi]
        refine .granted h (fun o ho hs => absurd hs (hnone o ho)) _ fun r => ?_
        rw [List.mem_append, List.mem_singleton]
        constructor
        · rintro (hr | rfl)
          · exact .inr ⟨hr, hnone r hr⟩
          · exact .inl rfl
        · rintro (rfl | ⟨hr, -⟩)
          · exact .inr rfl
          · exact .inl hr
    · refine .notFound ?_
      rw [hown]
      simpa using hs

end Db

end RtmpServer
