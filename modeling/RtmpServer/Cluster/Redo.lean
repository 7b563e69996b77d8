import RtmpServer.Cluster.Congruence

/-!
# Applying an entry again

A crash between a command's commit and the write of `last_applied` makes the node apply the same
entry once more, on the tables it already produced. For every command but one this changes nothing
and answers without an error (`applyNormal_redo`). `SeedFromStandalone` marks streams pending after
it inserted their viewers, and a viewer that only the insert itself refuses as a duplicate then
finds its stream unavailable, unless the seed is `SeedRedoable`.
-/

namespace RtmpServer

open List Lib.Table Lib.Replay

variable {tokens : List (String × String)} {viewers : List StreamViewer} {streams : List Stream}
  {db : Db} {v : StreamViewer}

/-- Every viewer a seed lists whose stream is missing or pending is refused by the duplicate check
of `viewer_add`, before the insert that needs the stream. -/
def SeedRedoable (db : Db) : ClusterCommand → Prop
  | .seedFromStandalone _ viewers _ _ _ =>
    ∀ v ∈ viewers, db.parentAvailable v.streamId = false → db.viewerKeyTaken v = true
  | _ => True

instance (db : Db) (cmd : ClusterCommand) : Decidable (SeedRedoable db cmd) := by
  cases cmd <;> unfold SeedRedoable <;> infer_instance

/-! ### Pending marks -/

theorem seedPending_eq (db : Db) (ids : List String) :
    seedPending db ids = db.setStreamFlags (fun r => decide (r.id ∈ ids)) false true := by
  induction ids generalizing db with
  | nil =>
    have hnone : ∀ r ∈ db.streams, decide (r.id ∈ ([] : List String)) = false := by simp
    simp only [Db.setStreamFlags, updateWhere_of_none hnone]
    rfl
  | cons id rest ih =>
    show seedPending (db.streamDisable id).1 rest = _
    rw [ih]
    simp only [Db.streamDisable, Db.streamDisableExpecting, Db.setStreamFlags, updateWhere,
      map_map]
    congr 2
    refine map_congr_left fun r _ => ?_
    by_cases h : r.id = id <;> by_cases h' : r.id ∈ rest <;>
      simp [Db.disableMatches, StreamRow.withFlags, h, h']

theorem setStreamFlags_setStreamFlags (db : Db) (p : StreamRow → Bool)
    (enabled pendingDelete : Bool) :
    (db.setStreamFlags p enabled pendingDelete).setStreamFlags p enabled pendingDelete =
      db.setStreamFlags p enabled pendingDelete := by
  have hf : ∀ r : StreamRow, (r.withFlags enabled pendingDelete).withFlags enabled pendingDelete =
      r.withFlags enabled pendingDelete := fun _ => rfl
  show { db with streams := updateWhere p _ (updateWhere p _ db.streams) } = _
  rw [updateWhere_updateWhere hf]
  rfl

/-! ### Rows that block an insert -/

/-- `db'` still has every row of `db` that an insert can collide with. -/
structure Keeps (db db' : Db) : Prop where
  streams : ∀ s ∈ db.streams, ∃ s' ∈ db'.streams, s'.id = s.id ∧ s'.publishKey = s.publishKey ∧
    s'.playKey = s.playKey ∧ s'.statsKey = s.statsKey
  viewers : ∀ v ∈ db.viewers, v ∈ db'.viewers

namespace Keeps

variable {db db' db'' : Db}
variable {v : StreamViewer} {s : Stream}

theorem refl (db : Db) : Keeps db db := ⟨fun s hs => ⟨s, hs, rfl, rfl, rfl, rfl⟩, fun _ h => h⟩

theorem trans (h : Keeps db db') (h' : Keeps db' db'') : Keeps db db'' := by
  refine ⟨fun s hs => ?_, fun v hv => h'.viewers v (h.viewers v hv)⟩
  obtain ⟨t, ht, h1, h2, h3, h4⟩ := h.streams s hs
  obtain ⟨u, hu, g1, g2, g3, g4⟩ := h'.streams t ht
  exact ⟨u, hu, g1.trans h1, g2.trans h2, g3.trans h3, g4.trans h4⟩

theorem insertStream {token : String} (h : db.insertStream s token = some db') : Keeps db db' := by
  obtain ⟨-, rfl⟩ := Db.insertStream_eq_some.1 h
  exact ⟨fun s hs => ⟨s, mem_append_left _ hs, rfl, rfl, rfl, rfl⟩, fun _ h => h⟩

theorem insertViewer (h : db.insertViewer v = some db') : Keeps db db' := by
  obtain ⟨-, -, rfl⟩ := Db.insertViewer_eq_some.1 h
  exact ⟨fun s hs => ⟨s, hs, rfl, rfl, rfl, rfl⟩, fun _ h => mem_append_left _ h⟩

theorem setStreamFlags (db : Db) (p : StreamRow → Bool) (enabled pendingDelete : Bool) :
    Keeps db (db.setStreamFlags p enabled pendingDelete) := by
  refine ⟨fun s hs => ⟨_, mem_updateWhere.2 ⟨s, hs, rfl⟩, ?_⟩, fun _ h => h⟩
  split_ifs <;> exact ⟨rfl, rfl, rfl, rfl⟩

theorem tokenReplace (db : Db) (token : String) : Keeps db (db.tokenReplace token) :=
  ⟨fun s hs => ⟨s, hs, rfl, rfl, rfl, rfl⟩, fun _ h => h⟩

theorem keyGloballyInUse (h : Keeps db db') {key : String}
    (hk : db.keyGloballyInUse key) : db'.keyGloballyInUse key = true := by
  simp only [Db.keyGloballyInUse, Bool.and_eq_true, Bool.or_eq_true, any_eq_true,
    decide_eq_true_eq] at hk ⊢
  refine ⟨hk.1, ?_⟩
  rcases hk.2 with ⟨s, hs, hkey⟩ | ⟨v, hv, hkey⟩
  · obtain ⟨t, ht, -, h2, h3, h4⟩ := h.streams s hs
    exact .inl ⟨t, ht, by rw [h2, h3, h4]; exact hkey⟩
  · exact .inr ⟨v, h.viewers v hv, hkey⟩

theorem streamKeysInUse (h : Keeps db db') (hk : db.streamKeysInUse s) :
    db'.streamKeysInUse s = true := by
  simp only [Db.streamKeysInUse, any_eq_true] at hk ⊢
  obtain ⟨key, hkey, hin⟩ := hk
  exact ⟨key, hkey, h.keyGloballyInUse hin⟩

theorem streamConstraintViolated (h : Keeps db db') (hk : db.streamConstraintViolated s) :
    db'.streamConstraintViolated s = true := by
  simp only [Db.streamConstraintViolated, any_eq_true, decide_eq_true_eq] at hk ⊢
  obtain ⟨r, hr, hor⟩ := hk
  obtain ⟨t, ht, h1, h2, h3, h4⟩ := h.streams r hr
  exact ⟨t, ht, by rw [h1, h2, h3, h4]; exact hor⟩

theorem viewerConstraintViolated (h : Keeps db db') (hk : db.viewerConstraintViolated v) :
    db'.viewerConstraintViolated v = true := by
  simp only [Db.viewerConstraintViolated, any_eq_true, decide_eq_true_eq] at hk ⊢
  obtain ⟨r, hr, hor⟩ := hk
  exact ⟨r, h.viewers r hr, hor⟩

theorem viewerKeyTaken (h : Keeps db db')
    (hp : (db.streamRow v.streamId).map (·.playKey) = (db'.streamRow v.streamId).map (·.playKey))
    (hk : db.viewerKeyTaken v) : db'.viewerKeyTaken v = true := by
  unfold Db.viewerKeyTaken at hk ⊢
  rw [← hp]
  split_ifs at hk ⊢
  · obtain ⟨r, hr, hor⟩ := any_eq_true.1 hk
    exact any_eq_true.2 ⟨r, h.viewers r hr, hor⟩
  · exact h.keyGloballyInUse hk

end Keeps

namespace Db

variable {db : Db}

theorem streamInsertOnlyWithToken_eq_duplicate {s : Stream} {token : String} :
    db.streamInsertOnlyWithToken s token = .error .duplicate ↔
      db.streamKeysInUse s ∨ db.streamConstraintViolated s = true := by
  unfold streamInsertOnlyWithToken insertStream
  by_cases hk : db.streamKeysInUse s = true
  · simp [hk]
  · by_cases hv : db.streamConstraintViolated s = true <;> simp [hk, hv]

theorem hasStream_of_parentAvailable {id : String} (h : db.parentAvailable id) :
    db.hasStream id = true := by
  simp only [parentAvailable, hasStream, any_eq_true, decide_eq_true_eq] at h ⊢
  obtain ⟨s, hs, hid, -⟩ := h
  exact ⟨s, hs, hid⟩

theorem viewerAdd_eq_duplicate {v : StreamViewer} :
    db.viewerAdd v = .error .duplicate ↔
      db.viewerKeyTaken v ∨
        db.parentAvailable v.streamId ∧ db.viewerConstraintViolated v = true := by
  unfold viewerAdd insertViewer
  by_cases hk : db.viewerKeyTaken v = true
  · simp [hk]
  · by_cases hp : db.parentAvailable v.streamId = true
    · have hs := hasStream_of_parentAvailable hp
      by_cases hv : db.viewerConstraintViolated v = true <;> simp [hk, hp, hs, hv]
    · simp [hk, hp]

end Db

/-! ### Seeding again -/

theorem seedStreams_blocks {db d : Db} (h : seedStreams tokens db streams = .ok d) :
    Keeps db d ∧
      ∀ s ∈ streams, d.streamKeysInUse s ∨ d.streamConstraintViolated s = true := by
  induction streams generalizing db with
  | nil =>
    cases h
    exact ⟨.refl d, by simp⟩
  | cons s rest ih =>
    unfold seedStreams at h
    cases hi : db.streamInsertOnlyWithToken s (seedToken tokens s) with
    | ok db₁ =>
      rw [hi] at h
      obtain ⟨hkeep, hrest⟩ := ih h
      have hins := (Db.streamInsertOnlyWithToken_eq_ok.1 hi).2
      have hself : db₁.streamConstraintViolated s = true := by
        obtain ⟨-, rfl⟩ := Db.insertStream_eq_some.1 hins
        simp [Db.streamConstraintViolated]
      refine ⟨(Keeps.insertStream hins).trans hkeep, fun t ht => ?_⟩
      rcases mem_cons.1 ht with rfl | ht
      · exact .inr (hkeep.streamConstraintViolated hself)
      · exact hrest t ht
    | error e =>
      cases Db.streamInsertOnlyWithToken_error hi
      rw [hi] at h
      obtain ⟨hkeep, hrest⟩ := ih h
      refine ⟨hkeep, fun t ht => ?_⟩
      rcases mem_cons.1 ht with rfl | ht
      · exact (Db.streamInsertOnlyWithToken_eq_duplicate.1 hi).imp
          hkeep.streamKeysInUse hkeep.streamConstraintViolated
      · exact hrest t ht

theorem seedStreams_of_blocked
    (h : ∀ s ∈ streams, db.streamKeysInUse s ∨ db.streamConstraintViolated s) :
    seedStreams tokens db streams = .ok db := by
  induction streams with
  | nil => rfl
  | cons s rest ih =>
    unfold seedStreams
    rw [Db.streamInsertOnlyWithToken_eq_duplicate.2 (h s mem_cons_self)]
    exact ih fun t ht => h t (mem_cons_of_mem _ ht)

/-- After the viewer loop, which leaves `streams` alone, every listed viewer is refused by the
duplicate check or by the insert. -/
theorem seedViewers_blocks {db d : Db} (h : seedViewers db viewers = .ok d) :
    d.streams = db.streams ∧ Keeps db d ∧
      ∀ v ∈ viewers, d.viewerKeyTaken v ∨ d.viewerConstraintViolated v = true := by
  induction viewers generalizing db with
  | nil =>
    cases h
    exact ⟨rfl, .refl d, by simp⟩
  | cons v rest ih =>
    unfold seedViewers at h
    cases hi : db.viewerAdd v with
    | ok db₁ =>
      rw [hi] at h
      obtain ⟨hstreams, hkeep, hrest⟩ := ih h
      have hins := (Db.viewerAdd_eq_ok.1 hi).2.2
      have hself : db₁.viewerConstraintViolated v = true ∧ db₁.streams = db.streams := by
        obtain ⟨-, -, rfl⟩ := Db.insertViewer_eq_some.1 hins
        simp [Db.viewerConstraintViolated]
      refine ⟨hstreams.trans hself.2, (Keeps.insertViewer hins).trans hkeep, fun w hw => ?_⟩
      rcases mem_cons.1 hw with rfl | hw
      · exact .inr (hkeep.viewerConstraintViolated hself.1)
      · exact hrest w hw
    | error e =>
      rw [hi] at h
      cases e with
      | duplicate =>
        obtain ⟨hstreams, hkeep, hrest⟩ := ih h
        refine ⟨hstreams, hkeep, fun w hw => ?_⟩
        rcases mem_cons.1 hw with rfl | hw
        · have hrow : db.streamRow w.streamId = d.streamRow w.streamId := by
            rw [Db.streamRow, Db.streamRow, hstreams]
          exact (Db.viewerAdd_eq_duplicate.1 hi).imp
            (hkeep.viewerKeyTaken (by rw [hrow])) fun hc => hkeep.viewerConstraintViolated hc.2
        · exact hrest w hw
      | parentUnavailable => cases h
      | db => cases h

theorem seedViewers_of_blocked (h : ∀ v ∈ viewers, db.viewerAdd v = .error .duplicate) :
    seedViewers db viewers = .ok db := by
  induction viewers with
  | nil => rfl
  | cons v rest ih =>
    unfold seedViewers
    rw [h v mem_cons_self]
    exact ih fun w hw => h w (mem_cons_of_mem _ hw)

/-- Seeding again what was seeded changes nothing, provided the viewers of the streams it marked
pending are caught by the duplicate check. -/
theorem seedFromStandalone_redo {apiToken : Option String} {pending : List String}
    (hfirst : (seedFromStandalone db streams viewers tokens apiToken pending).response.isError =
      false)
    (hseed : SeedRedoable (seedFromStandalone db streams viewers tokens apiToken pending).db
      (.seedFromStandalone streams viewers tokens apiToken pending)) :
    seedFromStandalone (seedFromStandalone db streams viewers tokens apiToken pending).db
      streams viewers tokens apiToken pending =
    seedFromStandalone db streams viewers tokens apiToken pending := by
  obtain ⟨db₁, h₁, -⟩ := seedStreams_reaches tokens streams db
  cases h₂ : seedViewers db₁ viewers with
  | error db₂ => simp [seedFromStandalone, h₁, h₂, ClusterResponse.isError] at hfirst
  | ok db₂ =>
    obtain ⟨hk₁, hb₁⟩ := seedStreams_blocks h₁
    obtain ⟨hs₂, hk₂, hb₂⟩ := seedViewers_blocks h₂
    set db₃ := apiToken.elim db₂ db₂.tokenReplace with hdb₃
    set db₄ := seedPending db₃ pending with hdb₄
    have hrun : seedFromStandalone db streams viewers tokens apiToken pending =
        ⟨db₄, .ok, apiToken.toList.map .apiToken ++ pending.map .drainStream⟩ := by
      simp [seedFromStandalone, h₁, h₂, hdb₃, hdb₄]
    rw [hrun] at hseed ⊢
    have hflags : db₄ = db₃.setStreamFlags (fun r => decide (r.id ∈ pending)) false true :=
      seedPending_eq db₃ pending
    have h₂₃ : Keeps db₂ db₃ ∧ ∀ id, db₂.streamRow id = db₃.streamRow id := by
      cases apiToken with
      | none => exact ⟨.refl db₂, fun _ => rfl⟩
      | some token => exact ⟨.tokenReplace db₂ token, fun _ => rfl⟩
    have h₂₄ : Keeps db₂ db₄ := by
      rw [hflags]
      exact h₂₃.1.trans (Keeps.setStreamFlags _ _ _ _)
    have hrow : ∀ id, (db₂.streamRow id).map (·.playKey) = (db₄.streamRow id).map (·.playKey) := by
      intro id
      rw [hflags, Db.playKey_streamRow_setStreamFlags, h₂₃.2]
    have hstreams : seedStreams tokens db₄ streams = .ok db₄ :=
      seedStreams_of_blocked fun s hs => (hb₁ s hs).imp
        (hk₂.trans h₂₄).streamKeysInUse (hk₂.trans h₂₄).streamConstraintViolated
    have hviewers : seedViewers db₄ viewers = .ok db₄ := by
      refine seedViewers_of_blocked fun v hv => Db.viewerAdd_eq_duplicate.2 ?_
      by_cases hp : db₄.parentAvailable v.streamId = true
      · rcases hb₂ v hv with ht | hc
        · exact .inl (h₂₄.viewerKeyTaken (hrow _) ht)
        · exact .inr ⟨hp, h₂₄.viewerConstraintViolated hc⟩
      · exact .inl (hseed v hv (by simpa using hp))
    have htoken : apiToken.elim db₄ db₄.tokenReplace = db₄ := by
      cases apiToken with
      | none => rfl
      | some token =>
        rw [hflags]
        rfl
    have hpending : seedPending db₄ pending = db₄ := by
      rw [seedPending_eq, hflags, setStreamFlags_setStreamFlags]
    simp only [seedFromStandalone, hstreams, hviewers, htoken, hpending]

/-! ### The other commands -/

theorem redo_of_unchanged {index : UInt64} {cmd : ClusterCommand}
    (h : (applyNormal index db cmd).db = db)
    (hfirst : (applyNormal index db cmd).response.isError = false) :
    SameTables (applyNormal index (applyNormal index db cmd).db cmd).db
        (applyNormal index db cmd).db ∧
      (applyNormal index (applyNormal index db cmd).db cmd).response.isError = false := by
  rw [h]
  exact ⟨.of_toTables (by rw [h]), hfirst⟩

theorem streamAddWithViewerWithToken_redo {db db' : Db} {s : Stream} {token : String}
    (h : db.streamAddWithViewerWithToken s v token = .ok db') :
    db'.streamAddWithViewerWithToken s v token = .error .duplicate := by
  obtain ⟨hm, -, db₁, hs, hv⟩ := Db.streamAddWithViewerWithToken_eq_ok.1 h
  obtain ⟨-, rfl⟩ := Db.insertStream_eq_some.1 hs
  obtain ⟨-, -, rfl⟩ := Db.insertViewer_eq_some.1 hv
  have hm' : ¬(v.streamId ≠ s.id ∨ v.playKey ≠ s.playKey) := by tauto
  unfold Db.streamAddWithViewerWithToken
  rw [if_neg hm']
  split_ifs
  · rfl
  · simp [Db.insertStream, Db.streamConstraintViolated]

theorem viewerAdd_redo {db db' : Db} (h : db.viewerAdd v = .ok db') :
    db'.viewerAdd v = .error .duplicate := by
  obtain ⟨-, hp, hi⟩ := Db.viewerAdd_eq_ok.1 h
  obtain ⟨-, -, rfl⟩ := Db.insertViewer_eq_some.1 hi
  exact Db.viewerAdd_eq_duplicate.2 (.inr ⟨hp, by simp [Db.viewerConstraintViolated]⟩)

theorem streamDeleteIfPending_redo (db : Db) (id : String) :
    (db.streamDeleteIfPending id).1.streamDeleteIfPending id =
      ((db.streamDeleteIfPending id).1, false) := by
  unfold Db.streamDeleteIfPending
  dsimp only
  by_cases h : (db.streams.any fun r => decide (r.id = id ∧ r.pendingDelete = true)) = true
  · rw [if_pos h]
    have hnone : ((deleteWhere (fun r : StreamRow => decide (r.id = id ∧ r.pendingDelete = true))
        db.streams).any fun r => decide (r.id = id ∧ r.pendingDelete = true)) = false := by
      rw [any_eq_false]
      intro r hr
      simpa using (mem_deleteWhere.1 hr).2
    dsimp only
    rw [if_neg (by rw [hnone]; exact Bool.false_ne_true)]
  · rw [if_neg h, if_neg h]

theorem deleteOwners_deleteOwners (db : Db) (p : OwnerRow → Bool) :
    SameTables ((db.deleteOwners p).deleteOwners p) (db.deleteOwners p) :=
  ⟨.refl _, .refl _, by simp [Db.deleteOwners], rfl, rfl⟩

theorem deleteViewer_redo (db : Db) (streamId viewerId : String) :
    (deleteViewer (deleteViewer db streamId viewerId).db streamId viewerId).db =
      (deleteViewer db streamId viewerId).db := by
  rcases deleteViewer_cases db streamId viewerId with h | h | ⟨-, h⟩
  · rw [h, h]
  · rw [h, h]
  · set d := (deleteViewer db streamId viewerId).db with hd
    rcases deleteViewer_cases d streamId viewerId with h' | h' | ⟨hdel, -⟩
    · rw [h']
    · rw [h']
    · rw [hd, h] at hdel
      obtain ⟨v, hv, hp⟩ := any_eq_true.1 hdel
      have hnot := (mem_deleteWhere.1 hv).2
      rw [hp] at hnot
      cases hnot

theorem streamOwnerAcquire_again {db db' : Db} (hok : SchemaOk db) (hok' : SchemaOk db')
    {streamId : String} {nodeId epoch ep : UInt64} {acquiredAt : Int}
    (h : db.streamOwnerAcquire streamId nodeId epoch acquiredAt = .ok (db', ep)) :
    ∃ owners, db'.streamOwnerAcquire streamId nodeId epoch acquiredAt =
        .ok ({ db' with owners := owners }, ep) ∧ ∀ r, r ∈ owners ↔ r ∈ db'.owners := by
  have hspec := Db.streamOwnerAcquire_spec hok streamId nodeId epoch acquiredAt
  have hspec' := Db.streamOwnerAcquire_spec hok' streamId nodeId epoch acquiredAt
  rw [h] at hspec
  generalize hres : db'.streamOwnerAcquire streamId nodeId epoch acquiredAt = res at hspec'
  cases hspec with
  | granted hown hfree owners hrows =>
    cases hspec' with
    | notFound hnot => exact absurd hown (by simpa [Db.ownable] using hnot)
    | conflict _ o ho hsid hn =>
      rcases (hrows o).1 ho with rfl | ⟨-, hne⟩
      · exact absurd rfl hn
      · exact absurd hsid hne
    | granted _ _ owners' hrows' =>
      refine ⟨owners', rfl, fun r => ?_⟩
      show r ∈ owners' ↔ r ∈ owners
      rw [hrows' r, hrows r]
      tauto

theorem acquireResponse_redo (hok : SchemaOk db) (index : UInt64) (streamId : String)
    (nodeId epoch : UInt64) (acquiredAt : Int) :
    let first := applyNormal index db (.acquireStreamOwner streamId nodeId epoch acquiredAt)
    let second := applyNormal index first.db (.acquireStreamOwner streamId nodeId epoch acquiredAt)
    SameTables second.db first.db ∧ second.response = first.response := by
  intro first second
  have hok₁ : SchemaOk first.db := applyNormal_schemaOk hok _ _
  have hok₂ : SchemaOk second.db := applyNormal_schemaOk hok₁ _ _
  cases h₁ : db.streamOwnerAcquire streamId nodeId (max index 1) acquiredAt with
  | error err =>
    -- a refusal leaves the database, so the second run is the first
    have hfirst : first.db = db := by
      show (acquireResponse db _ (db.streamOwnerAcquire _ _ _ _)).db = db
      rw [h₁]
      cases err <;> rfl
    have hsecond : second = first := by
      show applyNormal index first.db _ = _
      rw [hfirst]
    rw [hsecond]
    exact ⟨.refl _, rfl⟩
  | ok res =>
    obtain ⟨db', ep⟩ := res
    have hfirst : first = ⟨db', .ownerEpoch ep, [.ownershipChanged]⟩ := by
      show acquireResponse db _ (db.streamOwnerAcquire _ _ _ _) = _
      rw [h₁]
      rfl
    rw [hfirst] at hok₁
    obtain ⟨owners, h₂, hmem⟩ := streamOwnerAcquire_again hok hok₁ h₁
    have hsecond : second = ⟨{ db' with owners := owners }, .ownerEpoch ep,
        [.ownershipChanged]⟩ := by
      show acquireResponse first.db _ (first.db.streamOwnerAcquire _ _ _ _) = _
      rw [hfirst, h₂]
      rfl
    rw [hsecond] at hok₂ ⊢
    rw [hfirst]
    have hperm := perm_of_mem_iff hok₂.ownerStream hok₁.ownerStream hmem
    exact ⟨⟨.refl _, .refl _, hperm, rfl, rfl⟩, rfl⟩

/-- **An entry may be applied again.** On the tables it produced, a command changes nothing and does
not fail; a seed needs `SeedRedoable` there. -/
theorem applyNormal_redo (hok : SchemaOk db) (index : UInt64) (cmd : ClusterCommand)
    (hfirst : (applyNormal index db cmd).response.isError = false)
    (hseed : SeedRedoable (applyNormal index db cmd).db cmd) :
    SameTables (applyNormal index (applyNormal index db cmd).db cmd).db
        (applyNormal index db cmd).db ∧
      (applyNormal index (applyNormal index db cmd).db cmd).response.isError = false := by
  cases cmd with
  | createStream s v token =>
    cases h : db.streamAddWithViewerWithToken s v (createToken s token) with
    | error e =>
      have hdb : (applyNormal index db (.createStream s v token)).db = db := by
        simp only [applyNormal, applyCommand, h]
        cases e <;> rfl
      exact redo_of_unchanged hdb hfirst
    | ok db' =>
      have h' := streamAddWithViewerWithToken_redo h
      simp only [applyNormal, applyCommand, h, h']
      exact ⟨.refl _, rfl⟩
  | beginDeleteStream id createdAt token =>
    refine ⟨?_, ?_⟩
    · rw [beginDeleteStream_db, beginDeleteStream_db, setStreamFlags_setStreamFlags]
    · generalize (applyNormal index db (.beginDeleteStream id createdAt token)).db = d
      simp only [applyNormal, applyCommand, Db.streamDisableExpecting]
      split_ifs <;> rfl
  | finalizeDeleteStream id =>
    rw [finalizeDeleteStream_db index db id]
    simp only [applyNormal, applyCommand, streamDeleteIfPending_redo]
    refine ⟨.refl _, ?_⟩
    split_ifs <;> rfl
  | setStreamEnabled id enabled =>
    refine ⟨?_, ?_⟩
    · rw [setStreamEnabled_db, setStreamEnabled_db, setStreamFlags_setStreamFlags]
    · rw [setStreamEnabled_response]
      split_ifs <;> rfl
  | createViewer v =>
    cases h : db.viewerAdd v with
    | error e =>
      have hdb : (applyNormal index db (.createViewer v)).db = db := by
        simp only [applyNormal, applyCommand, h]
        cases e <;> rfl
      exact redo_of_unchanged hdb hfirst
    | ok db' =>
      have h' := viewerAdd_redo h
      simp only [applyNormal, applyCommand, h, h']
      exact ⟨.refl _, rfl⟩
  | deleteViewer streamId viewerId =>
    refine ⟨.of_toTables (congrArg Db.toTables (deleteViewer_redo db streamId viewerId)), ?_⟩
    show (deleteViewer (deleteViewer db streamId viewerId).db streamId viewerId).response.isError = _
    generalize (deleteViewer db streamId viewerId).db = d
    rcases deleteViewer_cases d streamId viewerId with h | h | ⟨-, h⟩ <;> rw [h] <;> rfl
  | setApiToken token => exact ⟨.refl _, rfl⟩
  | acquireStreamOwner streamId nodeId epoch acquiredAt =>
    obtain ⟨hsame, hresp⟩ := acquireResponse_redo hok index streamId nodeId epoch acquiredAt
    exact ⟨hsame, by rw [hresp]; exact hfirst⟩
  | releaseStreamOwner streamId epoch => exact ⟨deleteOwners_deleteOwners db _, rfl⟩
  | releaseOwnersForNode nodeId maxEpoch => exact ⟨deleteOwners_deleteOwners db _, rfl⟩
  | seedFromStandalone streams viewers tokens apiToken pending =>
    have h := seedFromStandalone_redo hfirst hseed
    refine ⟨?_, ?_⟩
    · exact .of_toTables (congrArg (fun a : Applied => a.db.toTables) h)
    · exact (congrArg (fun a : Applied => a.response.isError) h).trans hfirst
  | setClusterId id => exact ⟨.refl _, rfl⟩

end RtmpServer
