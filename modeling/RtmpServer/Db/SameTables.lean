import RtmpServer.Db.Changes

/-!
# Equal replicated tables

`SameTables` compares the replicated part of two databases: the same rows in `streams`,
`stream_viewers` and `stream_owners`, in any order, and the same settings as their readers see them
(an empty value reads as unset everywhere). Every operation answers alike on such databases and
leaves such databases.
-/

namespace RtmpServer

open Lib.Table

structure SameTables (db db' : Db) : Prop where
  streams : db.streams.Perm db'.streams
  viewers : db.viewers.Perm db'.viewers
  owners : db.owners.Perm db'.owners
  apiToken : db.tokenGet = db'.tokenGet
  clusterId : db.clusterIdGet = db'.clusterIdGet

/-- Both refuse with the same error, or both succeed with the same tables. -/
def SameResult {ε : Type} : Except ε Db → Except ε Db → Prop
  | .ok db, .ok db' => SameTables db db'
  | .error e, .error e' => e = e'
  | _, _ => False

theorem SameResult.cases {ε : Type} {a b : Except ε Db} (h : SameResult a b) :
    (∃ d d', a = .ok d ∧ b = .ok d' ∧ SameTables d d') ∨ ∃ e, a = .error e ∧ b = .error e := by
  cases a with
  | ok d =>
    cases b with
    | ok d' => exact .inl ⟨d, d', rfl, rfl, h⟩
    | error e => exact h.elim
  | error e =>
    cases b with
    | ok d' => exact h.elim
    | error e' =>
      obtain rfl : e = e' := h
      exact .inr ⟨e, rfl, rfl⟩

namespace SameTables

variable {db db' db'' : Db}

@[refl] theorem refl (db : Db) : SameTables db db := ⟨.refl _, .refl _, .refl _, rfl, rfl⟩

theorem of_toTables (h : db.toTables = db'.toTables) : SameTables db db' := by
  have hs : db.streams = db'.streams := by rw [h]
  have hv : db.viewers = db'.viewers := by rw [h]
  have ho : db.owners = db'.owners := by rw [h]
  have ht : db.apiToken = db'.apiToken := by rw [h]
  have hc : db.clusterId = db'.clusterId := by rw [h]
  exact ⟨hs ▸ .refl _, hv ▸ .refl _, ho ▸ .refl _, by rw [Db.tokenGet, Db.tokenGet, ht],
    by rw [Db.clusterIdGet, Db.clusterIdGet, hc]⟩

variable (h : SameTables db db')
include h

@[symm] theorem symm : SameTables db' db :=
  ⟨h.streams.symm, h.viewers.symm, h.owners.symm, h.apiToken.symm, h.clusterId.symm⟩

theorem trans (h' : SameTables db' db'') : SameTables db db'' :=
  ⟨h.streams.trans h'.streams, h.viewers.trans h'.viewers, h.owners.trans h'.owners,
    h.apiToken.trans h'.apiToken, h.clusterId.trans h'.clusterId⟩

/-! ### Queries -/

theorem streamConstraintViolated (s : Stream) :
    db.streamConstraintViolated s = db'.streamConstraintViolated s :=
  any_perm h.streams _

theorem viewerConstraintViolated (v : StreamViewer) :
    db.viewerConstraintViolated v = db'.viewerConstraintViolated v :=
  any_perm h.viewers _

theorem hasStream (id : String) : db.hasStream id = db'.hasStream id :=
  any_perm h.streams _

theorem keyGloballyInUse (key : String) :
    db.keyGloballyInUse key = db'.keyGloballyInUse key := by
  unfold Db.keyGloballyInUse
  rw [any_perm h.streams, any_perm h.viewers]

theorem streamKeysInUse (s : Stream) :
    db.streamKeysInUse s = db'.streamKeysInUse s := by
  simp only [Db.streamKeysInUse, List.any_cons, List.any_nil, h.keyGloballyInUse]

theorem parentAvailable (id : String) :
    db.parentAvailable id = db'.parentAvailable id :=
  any_perm h.streams _

theorem streamRow (hok : SchemaOk db) (id : String) :
    db.streamRow id = db'.streamRow id :=
  lookup_perm hok.streamId h.streams id

theorem streamGet (hok : SchemaOk db) (id : String) :
    db.streamGet id = db'.streamGet id := by
  rw [Db.streamGet, Db.streamGet, h.streamRow hok]

theorem ownerRow (hok : SchemaOk db) (streamId : String) :
    lookup (·.streamId) db.owners streamId = lookup (·.streamId) db'.owners streamId :=
  lookup_perm hok.ownerStream h.owners streamId

theorem viewerKeyTaken (hok : SchemaOk db) (v : StreamViewer) :
    db.viewerKeyTaken v = db'.viewerKeyTaken v := by
  unfold Db.viewerKeyTaken
  rw [h.streamRow hok, any_perm h.viewers, h.keyGloballyInUse]

theorem viewerList (streamId : String) :
    (db.viewerList streamId).Perm (db'.viewerList streamId) :=
  ((List.perm_insertionSort _ _).trans (h.viewers.filter _)).trans
    (List.perm_insertionSort _ _).symm

/-! ### Statements -/

theorem insertStream (s : Stream) (token : String) :
    Option.Rel SameTables (db.insertStream s token) (db'.insertStream s token) := by
  unfold Db.insertStream
  rw [h.streamConstraintViolated]
  split_ifs
  · exact .none
  · exact .some { h with streams := h.streams.append_right _ }

theorem insertViewer (v : StreamViewer) :
    Option.Rel SameTables (db.insertViewer v) (db'.insertViewer v) := by
  unfold Db.insertViewer
  rw [h.viewerConstraintViolated, h.hasStream]
  split_ifs
  · exact .none
  · exact .some { h with viewers := h.viewers.append_right _ }

theorem insertOwner (o : OwnerRow) :
    Option.Rel SameTables (db.insertOwner o) (db'.insertOwner o) := by
  unfold Db.insertOwner
  rw [any_perm h.owners, h.hasStream]
  split_ifs
  · exact .none
  · exact .some { h with owners := h.owners.append_right _ }

theorem setStreamFlags (p : StreamRow → Bool) (enabled pendingDelete : Bool) :
    SameTables (db.setStreamFlags p enabled pendingDelete)
      (db'.setStreamFlags p enabled pendingDelete) :=
  { h with streams := updateWhere_perm h.streams _ _ }

theorem streamDeleteIfPending (id : String) :
    SameTables (db.streamDeleteIfPending id).1 (db'.streamDeleteIfPending id).1 ∧
      (db.streamDeleteIfPending id).2 = (db'.streamDeleteIfPending id).2 := by
  unfold Db.streamDeleteIfPending
  dsimp only
  rw [any_perm h.streams]
  split_ifs
  · exact ⟨{ h with
      streams := deleteWhere_perm h.streams _
      viewers := deleteWhere_perm h.viewers _
      owners := deleteWhere_perm h.owners _ }, rfl⟩
  · exact ⟨h, rfl⟩

theorem viewerDelete (streamId viewerId : String) :
    SameTables (db.viewerDelete streamId viewerId).1 (db'.viewerDelete streamId viewerId).1 ∧
      (db.viewerDelete streamId viewerId).2 = (db'.viewerDelete streamId viewerId).2 :=
  ⟨{ h with viewers := deleteWhere_perm h.viewers _ }, any_perm h.viewers _⟩

theorem deleteOwners (p : OwnerRow → Bool) :
    SameTables (db.deleteOwners p) (db'.deleteOwners p) :=
  { h with owners := deleteWhere_perm h.owners p }

theorem playersDeactivateForViewer (viewerId : String) :
    SameTables (db.playersDeactivateForViewer viewerId)
      (db'.playersDeactivateForViewer viewerId) :=
  { h with }

theorem tokenReplace (token : String) :
    SameTables (db.tokenReplace token) (db'.tokenReplace token) :=
  { h with apiToken := rfl }

theorem clusterIdSet (id : String) :
    SameTables (db.clusterIdSet id) (db'.clusterIdSet id) :=
  { h with clusterId := rfl }

/-! ### Operations -/

theorem streamInsertOnlyWithToken (s : Stream) (token : String) :
    SameResult (db.streamInsertOnlyWithToken s token) (db'.streamInsertOnlyWithToken s token) := by
  unfold Db.streamInsertOnlyWithToken
  rw [h.streamKeysInUse]
  split_ifs
  · rfl
  · have hi := h.insertStream s token
    generalize db.insertStream s token = d, db'.insertStream s token = d' at hi ⊢
    cases hi with
    | none => rfl
    | some hsame => exact hsame

theorem streamAddWithViewerWithToken (s : Stream) (v : StreamViewer) (token : String) :
    SameResult (db.streamAddWithViewerWithToken s v token)
      (db'.streamAddWithViewerWithToken s v token) := by
  unfold Db.streamAddWithViewerWithToken
  rw [h.streamKeysInUse]
  split_ifs
  · rfl
  · rfl
  · have hi := h.insertStream s token
    generalize db.insertStream s token = d, db'.insertStream s token = d' at hi ⊢
    cases hi with
    | none => rfl
    | some hsame =>
      rename_i d d'
      dsimp only
      have hv := hsame.insertViewer v
      generalize d.insertViewer v = e, d'.insertViewer v = e' at hv ⊢
      cases hv with
      | none => rfl
      | some hsame => exact hsame

theorem viewerAdd (hok : SchemaOk db) (v : StreamViewer) :
    SameResult (db.viewerAdd v) (db'.viewerAdd v) := by
  unfold Db.viewerAdd
  rw [h.viewerKeyTaken hok, h.parentAvailable]
  split_ifs
  · rfl
  · rfl
  · have hi := h.insertViewer v
    generalize db.insertViewer v = d, db'.insertViewer v = d' at hi ⊢
    cases hi with
    | none => rfl
    | some hsame => exact hsame

end SameTables

end RtmpServer
