import RtmpServer.Cluster.Redo

/-!
# Entries that stop the state machine

`apply` turns an `Error` response into a storage error, and every replica stops at that index.
Without an I/O failure only two commands answer so, and for each of them failing on an entry that is
inconsistent in itself is what the source means to do. Two more paths end in the same response: a
default viewer whose row collides with a stored viewer, and a seeded viewer whose stream is stored
as pending (`ClusterCommand.Unhandled`).
-/

namespace RtmpServer

open Lib.Table List

/-- The databases that applying entries to an empty one leads to, failed entries included. -/
inductive Reachable : Db → Prop
  | empty : Reachable .empty
  | apply {db : Db} (h : Reachable db) (e : Entry) : Reachable (applyEntry db e).db

theorem Reachable.schemaOk {db : Db} (h : Reachable db) : SchemaOk db := by
  induction h with
  | empty => exact SchemaOk.empty
  | apply _ e ih => exact applyEntry_schemaOk ih e

/-! ### The seed -/

def Db.PendingStream (db : Db) (id : String) : Prop :=
  ∃ r ∈ db.streams, r.id = id ∧ r.pendingDelete = true

/-- The viewer loop of a seed comes to a viewer that the duplicate checks let through and whose
stream is, at that point, as `P` says. -/
def SeedComesTo (db : Db) (streams : List Stream) (viewers : List StreamViewer)
    (tokens : List (String × String)) (P : Db → String → Prop) : Prop :=
  ∃ db₁ db₂ before v after, seedStreams tokens db streams = .ok db₁ ∧
    viewers = before ++ v :: after ∧ seedViewers db₁ before = .ok db₂ ∧
    db₂.viewerKeyTaken v = false ∧ P db₂ v.streamId

theorem seedViewers_eq_error {viewers : List StreamViewer} {db db' : Db} :
    seedViewers db viewers = .error db' ↔
      ∃ before v after, viewers = before ++ v :: after ∧ seedViewers db before = .ok db' ∧
        db'.viewerKeyTaken v = false ∧ db'.parentAvailable v.streamId = false := by
  induction viewers generalizing db with
  | nil =>
    refine ⟨nofun, ?_⟩
    rintro ⟨before, v, after, h, -⟩
    simp at h
  | cons w rest ih =>
    -- a viewer that stops the loop is either the first or stands in the rest
    have hsplit (d : Db) (hw : ∀ before, seedViewers db (w :: before) = seedViewers d before)
        (hgo : db.viewerAdd w ≠ .error .parentUnavailable) :
        seedViewers db (w :: rest) = .error db' ↔
          ∃ before v after, w :: rest = before ++ v :: after ∧ seedViewers db before = .ok db' ∧
            db'.viewerKeyTaken v = false ∧ db'.parentAvailable v.streamId = false := by
      rw [hw, ih]
      constructor
      · rintro ⟨before, v, after, rfl, hb, hv⟩
        exact ⟨w :: before, v, after, rfl, (hw before).trans hb, hv⟩
      · rintro ⟨before, v, after, heq, hb, hv⟩
        cases before with
        | nil =>
          cases hb
          cases heq
          exact absurd (Db.viewerAdd_eq_parentUnavailable.2 hv) hgo
        | cons x before =>
          rw [cons_append, cons.injEq] at heq
          obtain ⟨rfl, rfl⟩ := heq
          exact ⟨before, v, after, rfl, (hw before).symm.trans hb, hv⟩
    cases hadd : db.viewerAdd w with
    | ok d => exact hsplit d (fun before => by rw [seedViewers, hadd]) (by rw [hadd]; nofun)
    | error err =>
      cases err with
      | duplicate =>
        exact hsplit db (fun before => by rw [seedViewers, hadd]) (by rw [hadd]; nofun)
      | db => exact absurd hadd Db.viewerAdd_ne_db
      | parentUnavailable =>
        rw [seedViewers, hadd]
        constructor
        · intro h
          cases h
          exact ⟨[], w, rest, rfl, rfl, Db.viewerAdd_eq_parentUnavailable.1 hadd⟩
        · rintro ⟨before, v, after, heq, hb, -⟩
          cases before with
          | nil =>
            cases hb
            rfl
          | cons x before =>
            rw [cons_append, cons.injEq] at heq
            rw [← heq.1, seedViewers, hadd] at hb
            cases hb

theorem Db.parentAvailable_eq_false {db : Db} (hok : SchemaOk db) (id : String) :
    db.parentAvailable id = false ↔ db.hasStream id = false ∨ db.PendingStream id := by
  constructor
  · intro h
    cases hs : db.hasStream id with
    | false => exact .inl rfl
    | true =>
      obtain ⟨r, hr, hid⟩ := Db.hasStream_iff.1 hs
      refine .inr ⟨r, hr, hid, ?_⟩
      have := any_eq_false.1 h r hr
      simpa [hid] using this
  · intro h
    rw [Bool.eq_false_iff]
    intro hp
    obtain ⟨s, hs, hsp⟩ := any_eq_true.1 hp
    obtain ⟨hid, hnp⟩ := of_decide_eq_true hsp
    rcases h with h | ⟨r, hr, hrid, hrp⟩
    · exact Bool.eq_false_iff.1 h (Db.hasStream_iff.2 ⟨s, hs, hid⟩)
    · rw [hok.streamId.eq_of_key hr hs (hrid.trans hid.symm), hnp] at hrp
      cases hrp

/-! ### The commands -/

/-- The command contradicts itself: a stream comes with a viewer of another, or a viewer without
its stream. -/
def ClusterCommand.Inconsistent (db : Db) : ClusterCommand → Prop
  | .createStream s v _ => v.streamId ≠ s.id ∨ v.playKey ≠ s.playKey
  | .seedFromStandalone streams viewers tokens _ _ =>
    SeedComesTo db streams viewers tokens fun d id => d.hasStream id = false
  | _ => False

/-- Collisions with stored rows that end in the response meant for storage failures. -/
def ClusterCommand.Unhandled (db : Db) : ClusterCommand → Prop
  | .createStream s v _ =>
    (v.streamId = s.id ∧ v.playKey = s.playKey) ∧ db.streamKeysInUse s = false ∧
      db.streamConstraintViolated s = false ∧ db.viewerConstraintViolated v = true
  | .seedFromStandalone streams viewers tokens _ _ =>
    SeedComesTo db streams viewers tokens Db.PendingStream
  | _ => False

theorem Db.streamAddWithViewerWithToken_eq_db {db : Db} {s : Stream} {v : StreamViewer}
    {token : String} :
    db.streamAddWithViewerWithToken s v token = .error .db ↔
      (v.streamId ≠ s.id ∨ v.playKey ≠ s.playKey) ∨
        (v.streamId = s.id ∧ v.playKey = s.playKey) ∧ db.streamKeysInUse s = false ∧
          db.streamConstraintViolated s = false ∧ db.viewerConstraintViolated v = true := by
  unfold Db.streamAddWithViewerWithToken
  split_ifs with hm hk
  · simp [hm]
  · simp [hm, hk]
  · have hm' : v.streamId = s.id ∧ v.playKey = s.playKey := by tauto
    unfold Db.insertStream
    split_ifs with hc
    · simp [hm', hc]
    · -- the stream row is there, so the viewer's insert fails on its own columns only
      set db₁ : Db := { db with streams := db.streams ++ [⟨s, false, token⟩] } with hdb₁
      have hparent : db₁.hasStream v.streamId = true :=
        Db.hasStream_iff.2 ⟨⟨s, false, token⟩, by simp [hdb₁], hm'.1.symm⟩
      have hviewers : db₁.viewerConstraintViolated v = db.viewerConstraintViolated v := rfl
      dsimp only [Db.insertViewer]
      rw [hparent, hviewers]
      cases hv : db.viewerConstraintViolated v <;> simp [hm', hc, hk]

theorem createStream_isError (index : UInt64) (db : Db) (s : Stream) (v : StreamViewer)
    (token : String) :
    (applyNormal index db (.createStream s v token)).response.isError ↔
      (ClusterCommand.createStream s v token).Inconsistent db ∨
        (ClusterCommand.createStream s v token).Unhandled db := by
  have hdb := @Db.streamAddWithViewerWithToken_eq_db db s v (createToken s token)
  rw [ClusterCommand.Inconsistent, ClusterCommand.Unhandled, ← hdb]
  simp only [applyNormal, applyCommand]
  cases h : db.streamAddWithViewerWithToken s v (createToken s token) with
  | ok db' => simp [ClusterResponse.isError]
  | error err => cases err <;> simp [ClusterResponse.isError]

theorem SchemaOk.seedStreams {db db' : Db} (h : SchemaOk db) {tokens : List (String × String)}
    {streams : List Stream} (hs : seedStreams tokens db streams = .ok db') : SchemaOk db' := by
  obtain ⟨d, hd, hr⟩ := seedStreams_reaches tokens streams db
  rw [hd, Except.ok.injEq] at hs
  exact hs ▸ h.reaches hr

theorem SchemaOk.seedViewers {db db' : Db} (h : SchemaOk db) {viewers : List StreamViewer}
    (hs : seedViewers db viewers = .ok db') : SchemaOk db' := by
  obtain ⟨d, hd, hr⟩ := seedViewers_steps (S := Reaches fun _ => True)
    (fun _ _ _ _ => reaches_viewerAdd trivial) db
  rw [hs, Except.ok.injEq] at hd
  rcases hd with rfl | hd
  · exact h.reaches (reaches_of_steps hr)
  · cases hd

theorem seedFromStandalone_isError {db : Db} (hok : SchemaOk db) (index : UInt64)
    (streams : List Stream) (viewers : List StreamViewer) (tokens : List (String × String))
    (apiToken : Option String) (pending : List String) :
    (applyNormal index db
        (.seedFromStandalone streams viewers tokens apiToken pending)).response.isError ↔
      SeedComesTo db streams viewers tokens (fun d id => d.hasStream id = false) ∨
        SeedComesTo db streams viewers tokens Db.PendingStream := by
  have herror : (applyNormal index db
      (.seedFromStandalone streams viewers tokens apiToken pending)).response.isError = true ↔
        ∃ db₁ db₂, seedStreams tokens db streams = .ok db₁ ∧
          seedViewers db₁ viewers = .error db₂ := by
    obtain ⟨db₁, hs, -⟩ := seedStreams_reaches tokens streams db
    simp only [applyNormal, applyCommand, seedFromStandalone, hs]
    cases hv : seedViewers db₁ viewers <;> simp [ClusterResponse.isError, hv]
  rw [herror]
  constructor
  · rintro ⟨db₁, db₂, hs, herr⟩
    obtain ⟨before, v, after, hsp, hb, ht, hp⟩ := seedViewers_eq_error.1 herr
    have hok₂ := (hok.seedStreams hs).seedViewers hb
    rcases (Db.parentAvailable_eq_false hok₂ _).1 hp with h | h
    · exact .inl ⟨db₁, db₂, before, v, after, hs, hsp, hb, ht, h⟩
    · exact .inr ⟨db₁, db₂, before, v, after, hs, hsp, hb, ht, h⟩
  · intro h
    have hor : SeedComesTo db streams viewers tokens
        (fun d id => d.hasStream id = false ∨ d.PendingStream id) := by
      rcases h with ⟨d₁, d₂, before, v, after, hs, hsp, hb, ht, hP⟩ |
        ⟨d₁, d₂, before, v, after, hs, hsp, hb, ht, hP⟩
      · exact ⟨d₁, d₂, before, v, after, hs, hsp, hb, ht, .inl hP⟩
      · exact ⟨d₁, d₂, before, v, after, hs, hsp, hb, ht, .inr hP⟩
    obtain ⟨db₁, db₂, before, v, after, hs, hsp, hb, ht, hP⟩ := hor
    have hok₂ := (hok.seedStreams hs).seedViewers hb
    exact ⟨db₁, db₂, hs, seedViewers_eq_error.2
      ⟨before, v, after, hsp, hb, ht, (Db.parentAvailable_eq_false hok₂ _).2 hP⟩⟩

/-- **The commands that answer `Error`.** -/
theorem applyNormal_isError {db : Db} (hok : SchemaOk db) (index : UInt64) (cmd : ClusterCommand) :
    (applyNormal index db cmd).response.isError ↔
      cmd.Inconsistent db ∨ cmd.Unhandled db := by
  have hno {p : Prop} (h : ¬ p) : p ↔ False ∨ False := by simpa using h
  cases cmd with
  | createStream s v token => exact createStream_isError index db s v token
  | seedFromStandalone streams viewers tokens apiToken pending =>
    exact seedFromStandalone_isError hok index streams viewers tokens apiToken pending
  | beginDeleteStream id createdAt token =>
    refine hno fun h => ?_
    simp only [applyNormal, applyCommand] at h
    split at h <;> cases h
  | finalizeDeleteStream id =>
    refine hno fun h => ?_
    simp only [applyNormal, applyCommand] at h
    split at h
    · cases h
    · dsimp only at h
      split_ifs at h <;> cases h
  | setStreamEnabled id enabled =>
    refine hno fun h => ?_
    rw [setStreamEnabled_response] at h
    split_ifs at h <;> cases h
  | createViewer v =>
    refine hno fun h => ?_
    have hdb := @Db.viewerAdd_ne_db db v
    simp only [applyNormal, applyCommand] at h
    cases hv : db.viewerAdd v with
    | ok db' => simp [hv, ClusterResponse.isError] at h
    | error err => cases err <;> simp [hv, ClusterResponse.isError] at h hdb
  | deleteViewer streamId viewerId =>
    refine hno fun h => ?_
    simp only [applyNormal, applyCommand] at h
    rcases deleteViewer_cases db streamId viewerId with hd | hd | ⟨-, hd⟩ <;>
      (rw [hd] at h; cases h)
  | setApiToken token => exact hno fun h => by cases h
  | acquireStreamOwner streamId nodeId epoch acquiredAt =>
    refine hno fun h => ?_
    have hspec := Db.streamOwnerAcquire_spec hok streamId nodeId (max index 1) acquiredAt
    simp only [applyNormal] at h
    generalize db.streamOwnerAcquire streamId nodeId (max index 1) acquiredAt = res at h hspec
    cases hspec <;> cases h
  | releaseStreamOwner streamId epoch => exact hno fun h => by cases h
  | releaseOwnersForNode nodeId maxEpoch => exact hno fun h => by cases h
  | setClusterId id => exact hno fun h => by cases h

/-- **Only inconsistent commands stop the state machine.** A command that collides with no stored
row the source leaves unhandled fails its apply exactly when it contradicts itself. -/
theorem apply_fails_iff {db : Db} (h : Reachable db) (logId : LogId) (cmd : ClusterCommand)
    (hcmd : ¬ cmd.Unhandled db) :
    step db ⟨logId, .normal cmd⟩ = none ↔ cmd.Inconsistent db := by
  have hstep : step db ⟨logId, .normal cmd⟩ = none ↔
      (applyNormal logId.index db cmd).response.isError = true := by
    unfold step applyEntry
    split_ifs with hr <;> simp [hr]
  rw [hstep, applyNormal_isError h.schemaOk, or_iff_left hcmd]

/-- The stream the examples create, and its default viewer. -/
def cameraStream : Stream := ⟨"cam", "Camera", "live", "pub", "play", "stats", true, 0⟩

def cameraViewer : StreamViewer := ⟨"v1", "cam", "Player 1", "play", true, 0⟩

def cameraDb : Db :=
  (applyEntry .empty ⟨⟨1, 1, 1⟩, .normal (.createStream cameraStream cameraViewer "t")⟩).db

/-- The stored stream once more, a new one, and a viewer of neither. -/
def strayViewerSeed : ClusterCommand :=
  .seedFromStandalone [cameraStream, ⟨"door", "Door", "live", "pub2", "play2", "stats2", true, 0⟩]
    [⟨"v2", "gate", "Player 2", "play3", true, 0⟩] [] "" []

theorem apply_fails_iff_seed :
    step cameraDb ⟨⟨1, 1, 2⟩, .normal strayViewerSeed⟩ = none ∧
      strayViewerSeed.Inconsistent cameraDb := by
  have hfails : step cameraDb ⟨⟨1, 1, 2⟩, .normal strayViewerSeed⟩ = none := by decide
  refine ⟨hfails, (apply_fails_iff (.apply .empty _) _ _ ?_).1 hfails⟩
  rintro ⟨db₁, db₂, _ | ⟨_, before⟩, v, after, hstreams, hviewers, hbefore, -, r, hr, -, hpending⟩
  · cases hbefore
    obtain rfl := Except.ok.inj hstreams
    exact absurd hpending ((by decide : ∀ r ∈ _, ¬ StreamRow.pendingDelete r = true) r hr)
  · simp at hviewers

/-- A default viewer of another stream stops the state machine at its first entry. -/
theorem mismatched_viewer_fails :
    Reachable .empty ∧
      step .empty ⟨⟨1, 1, 1⟩, .normal
        (.createStream cameraStream { cameraViewer with streamId := "other" } "t")⟩ = none :=
  ⟨.empty, by decide⟩

end RtmpServer
