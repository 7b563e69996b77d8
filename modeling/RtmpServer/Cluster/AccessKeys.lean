import Mathlib.Data.List.Flatten
import Mathlib.Data.List.Infix
import RtmpServer.Cluster.Seed

/-!
# Access keys

A key is stored in four columns: `publish_key`, `play_key` and `stats_key` of a stream and
`play_key` of a viewer. The schema only keeps each column free of duplicates. That no key stands in
two places at all (`KeysIdentify`) rests on the lookups the creating operations make before their
insert, and those look only at keys of the valid form.

`KeyWrite` says what a command can do to the two tables, with the checks it made.
-/

namespace RtmpServer

open List Lib.Table

variable {cmd : ClusterCommand} {I : Db → Prop} {db db' : Db} {v : StreamViewer} {s : Stream}
  {e : Entry}

/-! ### Where keys are stored -/

inductive KeyRole where
  | publish
  | play
  | stats
  | viewer
  deriving DecidableEq, Repr

/-- A key in one column of one row, with the stream it gives access to. -/
structure KeyUse where
  role : KeyRole
  streamId : String
  key : String
  deriving DecidableEq, Repr

def Stream.keyUses (s : Stream) : List KeyUse :=
  [⟨.publish, s.id, s.publishKey⟩, ⟨.play, s.id, s.playKey⟩, ⟨.stats, s.id, s.statsKey⟩]

def StreamViewer.keyUse (v : StreamViewer) : KeyUse := ⟨.viewer, v.streamId, v.playKey⟩

def Db.streamUses (db : Db) : List KeyUse := db.streams.flatMap (·.toStream.keyUses)

def Db.keyUses (db : Db) : List KeyUse := db.streamUses ++ db.viewers.map (·.keyUse)

/-- A stream's play key and the same key at one of its viewers. -/
def KeyUse.DefaultPair (u w : KeyUse) : Prop :=
  u.role = .play ∧ w.role = .viewer ∧ u.streamId = w.streamId

instance (u w : KeyUse) : Decidable (u.DefaultPair w) :=
  inferInstanceAs (Decidable (_ ∧ _))

/-- No key is used twice, but for the play key of a stream at its default viewer. -/
def Db.KeysIdentify (db : Db) : Prop :=
  db.keyUses.Pairwise fun u w => u.key = w.key → u.DefaultPair w

instance (db : Db) : Decidable db.KeysIdentify :=
  inferInstanceAs (Decidable (List.Pairwise _ _))

/-! ### What a command does to the two tables -/

def ClusterCommand.seededStreams : ClusterCommand → List Stream
  | .seedFromStandalone streams _ _ _ _ => streams
  | _ => []

def ClusterCommand.addedViewers : ClusterCommand → List StreamViewer
  | .createViewer v => [v]
  | .seedFromStandalone _ viewers _ _ _ => viewers
  | _ => []

/-- One operation of the command on `streams` and `stream_viewers`. -/
inductive KeyWrite (cmd : ClusterCommand) : Db → Db → Prop
  | createStream {db db' : Db} (s : Stream) (v : StreamViewer) (token : String)
      (hcmd : cmd = .createStream s v token)
      (h : db.streamAddWithViewerWithToken s v (createToken s token) = .ok db') :
    KeyWrite cmd db db'
  | seedStream {db db' : Db} (s : Stream) (token : String) (hcmd : s ∈ cmd.seededStreams)
      (h : db.streamInsertOnlyWithToken s token = .ok db') : KeyWrite cmd db db'
  | addViewer {db db' : Db} (v : StreamViewer) (hcmd : v ∈ cmd.addedViewers)
      (h : db.viewerAdd v = .ok db') : KeyWrite cmd db db'
  | setFlags {db : Db} (p : StreamRow → Bool) (enabled pendingDelete : Bool) :
    KeyWrite cmd db (db.setStreamFlags p enabled pendingDelete)
  | deleteStream {db : Db} (id : String) (hcmd : cmd = .finalizeDeleteStream id) :
    KeyWrite cmd db (db.streamDeleteIfPending id).1
  | deleteViewer {db : Db} (streamId viewerId : String) :
    KeyWrite cmd db (deleteViewer db streamId viewerId).db
  | other {db db' : Db} (hs : db'.streams = db.streams) (hv : db'.viewers = db.viewers) :
    KeyWrite cmd db db'

abbrev KeyWrites (cmd : ClusterCommand) : Db → Db → Prop := Relation.ReflTransGen (KeyWrite cmd)

theorem seedFromStandalone_keyWrites (db : Db) (streams : List Stream)
    (viewers : List StreamViewer) (tokens : List (String × String)) (apiToken : Option String)
    (pending : List String) :
    KeyWrites (.seedFromStandalone streams viewers tokens apiToken pending) db
      (seedFromStandalone db streams viewers tokens apiToken pending).db := by
  refine seedFromStandalone_steps ?_ ?_ ?_ ?_ db
  · exact fun s hs _ _ hi => .seedStream s _ hs hi
  · exact fun v hv _ _ hi => .addViewer v hv hi
  · exact fun _ _ _ => .other rfl rfl
  · exact fun id _ _ => .setFlags (Db.disableMatches id none none) false true

theorem acquireResponse_frame (index : UInt64) (db : Db) (streamId : String) (nodeId : UInt64)
    (acquiredAt : Int) (effects : List StateEffect) :
    KeyWrite cmd db (acquireResponse db effects
      (db.streamOwnerAcquire streamId nodeId (max index 1) acquiredAt)).db := by
  have hsame := (acquireResponse_reaches index db streamId nodeId 0 acquiredAt effects).inv
    (I := fun d => d.streams = db.streams ∧ d.viewers = db.viewers) ?_ ⟨rfl, rfl⟩
  · exact .other hsame.1 hsame.2
  · rintro d c d' (rfl | rfl) hd hrun
    · obtain ⟨-, -, rfl⟩ := Db.insertOwner_eq_some.1 hrun
      exact hd
    · cases hrun
      exact hd

/-- **A command does to the two tables only what its checked operations do.** -/
theorem applyNormal_keyWrites (index : UInt64) (db : Db) (cmd : ClusterCommand) :
    KeyWrites cmd db (applyNormal index db cmd).db := by
  cases cmd with
  | createStream s v token =>
    simp only [applyNormal, applyCommand]
    cases h : db.streamAddWithViewerWithToken s v (createToken s token) with
    | error e => cases e <;> exact .refl
    | ok db' => exact .single (.createStream s v token rfl h)
  | beginDeleteStream id createdAt token =>
    rw [beginDeleteStream_db]
    exact .single (.setFlags _ false true)
  | finalizeDeleteStream id =>
    rw [finalizeDeleteStream_db]
    exact .single (.deleteStream id rfl)
  | setStreamEnabled id enabled =>
    rw [setStreamEnabled_db]
    exact .single (.setFlags _ enabled false)
  | createViewer v =>
    simp only [applyNormal, applyCommand]
    cases h : db.viewerAdd v with
    | error e => cases e <;> exact .refl
    | ok db' => exact .single (.addViewer v mem_cons_self h)
  | deleteViewer streamId viewerId => exact .single (.deleteViewer streamId viewerId)
  | acquireStreamOwner streamId nodeId epoch acquiredAt =>
    exact .single (acquireResponse_frame index db streamId nodeId acquiredAt _)
  | seedFromStandalone streams viewers tokens apiToken pending =>
    exact seedFromStandalone_keyWrites db streams viewers tokens apiToken pending
  | setApiToken token => exact .single (.other rfl rfl)
  | releaseStreamOwner streamId epoch => exact .single (.other rfl rfl)
  | releaseOwnersForNode nodeId maxEpoch => exact .single (.other rfl rfl)
  | setClusterId id => exact .single (.other rfl rfl)

/-- The database after a log, also past entries that answered with an error. -/
def rowsAfter (db : Db) (log : List Entry) : Db := log.foldl (fun db e => (applyEntry db e).db) db

theorem KeyWrites.inv (hstep : ∀ db db', KeyWrite cmd db db' → I db → I db')
    (h : KeyWrites cmd db db') (hdb : I db) : I db' := by
  induction h with
  | refl => exact hdb
  | tail _ hw ih => exact hstep _ _ hw ih

theorem applyEntry_inv
    (hstep : ∀ cmd, e.payload = .normal cmd → ∀ db db', KeyWrite cmd db db' → I db → I db')
    {db : Db} (hdb : I db) : I (applyEntry db e).db := by
  unfold applyEntry
  cases hp : e.payload with
  | blank => exact hdb
  | membership mem => exact hdb
  | normal cmd => exact (applyNormal_keyWrites _ db cmd).inv (hstep cmd hp) hdb

theorem rowsAfter_inv {log : List Entry} (hstep : ∀ e ∈ log, ∀ db, I db → I (applyEntry db e).db)
    {db : Db} (hdb : I db) : I (rowsAfter db log) :=
  foldlRecOn log _ hdb fun db hdb e he => hstep e he db hdb

/-! ### A key identifies one grant -/

namespace Db

variable {db : Db}
variable {s : Stream} {u : KeyUse}

theorem mem_keyUses_stream (hu : u ∈ s.keyUses) :
    u.key ∈ s.keys ∧ u.streamId = s.id ∧ u.role ≠ .viewer := by
  simp only [Stream.keyUses, mem_cons, not_mem_nil, or_false] at hu
  rcases hu with rfl | rfl | rfl <;> simp [Stream.keys]

theorem mem_streamUses :
    u ∈ db.streamUses ↔ ∃ r ∈ db.streams, u ∈ r.toStream.keyUses := mem_flatMap

/-- `KeysIdentify` by tables: no key twice among the streams, none twice among the viewers, and
between the two only the pairs of a stream and its default viewer. -/
theorem keysIdentify_iff :
    db.KeysIdentify ↔ UniqueOn (·.key) db.streamUses ∧ UniqueOn (·.playKey) db.viewers ∧
      ∀ u ∈ db.streamUses, ∀ v ∈ db.viewers, u.key = v.playKey →
        u.role = .play ∧ u.streamId = v.streamId := by
  rw [KeysIdentify, keyUses, pairwise_append]
  refine and_congr ?_ (and_congr ?_ ?_)
  · rw [UniqueOn, List.Nodup, pairwise_map]
    refine List.Pairwise.iff_of_mem fun {u w} _ hw => ⟨fun h heq => ?_, fun h heq => absurd heq h⟩
    obtain ⟨r, -, hwr⟩ := mem_streamUses.1 hw
    exact (mem_keyUses_stream hwr).2.2 (h heq).2.1
  · rw [UniqueOn, List.Nodup, pairwise_map, pairwise_map]
    refine List.Pairwise.iff fun v w => ⟨fun h heq => ?_, fun h heq => absurd heq h⟩
    exact absurd (h heq).1 (by simp [StreamViewer.keyUse])
  · simp [KeyUse.DefaultPair, StreamViewer.keyUse]

theorem streamUses_append (r : StreamRow) :
    ({ db with streams := db.streams ++ [r] } : Db).streamUses =
      db.streamUses ++ r.toStream.keyUses := by
  simp [streamUses]

theorem KeysIdentify.insertStream (h : db.KeysIdentify) (token : String) (hnodup : s.keys.Nodup)
    (hfree : ∀ key ∈ s.keys, ∀ u ∈ db.keyUses, u.key ≠ key) :
    ({ db with streams := db.streams ++ [⟨s, false, token⟩] } : Db).KeysIdentify := by
  rw [keysIdentify_iff] at h ⊢
  obtain ⟨hs, hv, hcross⟩ := h
  refine ⟨?_, hv, fun u hu v hmem heq => ?_⟩
  · rw [streamUses_append, UniqueOn, map_append, nodup_append]
    refine ⟨hs, hnodup, fun key hkey key' hkey' => ?_⟩
    obtain ⟨u, hu, rfl⟩ := mem_map.1 hkey
    exact hfree key' hkey' u (mem_append_left _ hu)
  · rw [streamUses_append, mem_append] at hu
    rcases hu with hu | hu
    · exact hcross u hu v hmem heq
    · have hne := hfree u.key (mem_keyUses_stream hu).1 v.keyUse
        (mem_append_right _ (mem_map_of_mem hmem))
      exact absurd heq.symm hne

theorem KeysIdentify.insertViewer (h : db.KeysIdentify) {v : StreamViewer}
    (hv : ∀ u ∈ db.keyUses, u.key = v.playKey → u.DefaultPair v.keyUse) :
    ({ db with viewers := db.viewers ++ [v] } : Db).KeysIdentify := by
  have happend : ({ db with viewers := db.viewers ++ [v] } : Db).keyUses =
      db.keyUses ++ [v.keyUse] := by
    simp [keyUses, streamUses]
  rw [KeysIdentify, happend, pairwise_append]
  refine ⟨h, pairwise_singleton _ _, fun u hu w hw heq => ?_⟩
  rw [mem_singleton.1 hw] at heq ⊢
  exact hv u hu heq

theorem KeysIdentify.sublist {db' : Db} (h : db.KeysIdentify) (hs : db'.streams.Sublist db.streams)
    (hv : db'.viewers.Sublist db.viewers) : db'.KeysIdentify :=
  List.Pairwise.sublist ((hs.flatMap _).append (hv.map _)) h

theorem KeysIdentify.setStreamFlags (h : db.KeysIdentify) (p : StreamRow → Bool)
    (enabled pendingDelete : Bool) : (db.setStreamFlags p enabled pendingDelete).KeysIdentify := by
  have hsame : (db.setStreamFlags p enabled pendingDelete).streamUses = db.streamUses := by
    unfold streamUses Db.setStreamFlags updateWhere
    rw [flatMap_map]
    refine congrArg (fun f => db.streams.flatMap f) ?_
    funext r
    split_ifs <;> rfl
  rw [KeysIdentify, keyUses, hsame]
  exact h

theorem not_used_of_not_inUse {key : String} (hvalid : isValidAccessKey key)
    (h : db.keyGloballyInUse key = false) : ∀ u ∈ db.keyUses, u.key ≠ key := by
  intro u hu heq
  have huse : db.keyGloballyInUse key = true := by
    rw [keyGloballyInUse_iff]
    refine ⟨hvalid, ?_⟩
    rcases mem_append.1 hu with hu | hu
    · obtain ⟨r, hr, hur⟩ := mem_streamUses.1 hu
      exact .inl ⟨r.toStream, mem_map_of_mem hr, heq ▸ (mem_keyUses_stream hur).1⟩
    · obtain ⟨v, hv, rfl⟩ := mem_map.1 hu
      exact .inr ⟨v, hv, heq⟩
  rw [huse] at h
  cases h

end Db

/-- The keys the HTTP handlers let through: valid, and no two of a stream the same. -/
def Stream.WellKeyed (s : Stream) : Prop :=
  (∀ key ∈ s.keys, isValidAccessKey key = true) ∧ s.keys.Nodup

instance (s : Stream) : Decidable s.WellKeyed := inferInstanceAs (Decidable (_ ∧ _))

/-- The commands that carry such keys. Seeded rows are checked against each other as they are
inserted, so the same is asked of them one by one. -/
def ClusterCommand.WellKeyed : ClusterCommand → Prop
  | .createStream s _ _ => s.WellKeyed
  | .createViewer v => isValidAccessKey v.playKey = true
  | .seedFromStandalone streams viewers _ _ _ =>
    (∀ s ∈ streams, s.WellKeyed) ∧ ∀ v ∈ viewers, isValidAccessKey v.playKey = true
  | _ => True

theorem ClusterCommand.WellKeyed.seeded (h : cmd.WellKeyed) (hs : s ∈ cmd.seededStreams) :
    s.WellKeyed := by
  cases cmd <;> simp only [seededStreams, not_mem_nil] at hs
  exact h.1 s hs

theorem ClusterCommand.WellKeyed.added (h : cmd.WellKeyed) (hv : v ∈ cmd.addedViewers) :
    isValidAccessKey v.playKey = true := by
  cases cmd <;> simp only [addedViewers, mem_singleton, not_mem_nil] at hv
  · rw [hv]
    exact h
  · exact h.2 v hv

namespace Db

variable {db db' : Db}
variable {s : Stream} {v : StreamViewer} {token : String}

theorem not_used_of_streamKeysInUse (hs : s.WellKeyed) (h : db.streamKeysInUse s = false) :
    ∀ key ∈ s.keys, ∀ u ∈ db.keyUses, u.key ≠ key := by
  intro key hkey
  refine not_used_of_not_inUse (hs.1 key hkey) ?_
  rw [Bool.eq_false_iff]
  intro huse
  rw [streamKeysInUse_iff.2 ⟨key, hkey, huse⟩] at h
  cases h

theorem KeysIdentify.streamInsertOnly (h : db.KeysIdentify) (hs : s.WellKeyed)
    (hi : db.streamInsertOnlyWithToken s token = .ok db') : db'.KeysIdentify := by
  obtain ⟨hfree, hins⟩ := streamInsertOnlyWithToken_eq_ok.1 hi
  obtain ⟨-, rfl⟩ := insertStream_eq_some.1 hins
  exact h.insertStream token hs.2 (not_used_of_streamKeysInUse hs hfree)

theorem KeysIdentify.streamAddWithViewer (h : db.KeysIdentify) (hs : s.WellKeyed)
    (hi : db.streamAddWithViewerWithToken s v token = .ok db') : db'.KeysIdentify := by
  obtain ⟨⟨hsid, hkey⟩, hfree, db₁, hins, hvin⟩ := streamAddWithViewerWithToken_eq_ok.1 hi
  have hnot := not_used_of_streamKeysInUse hs hfree
  obtain ⟨-, rfl⟩ := insertStream_eq_some.1 hins
  obtain ⟨-, -, rfl⟩ := insertViewer_eq_some.1 hvin
  refine (h.insertStream token hs.2 hnot).insertViewer fun u hu heq => ?_
  rw [keyUses, streamUses_append, append_assoc, mem_append, mem_append] at hu
  have hplay : s.playKey ∈ s.keys := by simp [Stream.keys]
  rw [hkey] at heq
  rcases hu with hu | hu | hu
  · exact absurd heq (hnot s.playKey hplay u (mem_append_left _ hu))
  · have hnodup := hs.2
    simp only [Stream.keys, nodup_cons, mem_cons, not_mem_nil, or_false, not_or] at hnodup
    simp only [Stream.keyUses, mem_cons, not_mem_nil, or_false] at hu
    rcases hu with rfl | rfl | rfl
    · exact absurd heq hnodup.1.1
    · exact ⟨rfl, rfl, hsid.symm⟩
    · exact absurd heq.symm hnodup.2.1
  · exact absurd heq (hnot s.playKey hplay u (mem_append_right _ hu))

/-- A viewer is added with its stream's play key, which then stands nowhere else, or with a key
that stands nowhere at all. -/
theorem KeysIdentify.viewerAdd (h : db.KeysIdentify) (hid : UniqueOn (·.id) db.streams)
    (hvalid : isValidAccessKey v.playKey) (hi : db.viewerAdd v = .ok db') :
    db'.KeysIdentify := by
  obtain ⟨hfree, -, hins⟩ := viewerAdd_eq_ok.1 hi
  obtain ⟨hne, -, rfl⟩ := insertViewer_eq_some.1 hins
  refine h.insertViewer fun u hu heq => ?_
  rw [Bool.eq_false_iff, Ne, viewerKeyTaken_iff hid, not_or] at hfree
  by_cases hd : db.isDefaultViewer v
  · obtain ⟨t, ht, htid, hkey⟩ := hd
    obtain ⟨r, hr, rfl⟩ := mem_map.1 ht
    rcases mem_append.1 hu with hu | hu
    · have hplay : (⟨.play, r.id, r.playKey⟩ : KeyUse) ∈ db.streamUses :=
        mem_streamUses.2 ⟨r, hr, by simp [Stream.keyUses]⟩
      have hsame := (keysIdentify_iff.1 h).1.eq_of_key hu hplay (heq.trans hkey.symm)
      rw [hsame]
      exact ⟨rfl, rfl, htid⟩
    · obtain ⟨w, hw, rfl⟩ := mem_map.1 hu
      exact absurd heq (hne w hw).2
  · have hnot : db.keyGloballyInUse v.playKey = false := by
      rw [Bool.eq_false_iff]
      exact fun huse => hfree.2 ⟨hd, huse⟩
    exact absurd heq (not_used_of_not_inUse hvalid hnot u hu)

end Db

theorem deleteViewer_sublist (db : Db) (streamId viewerId : String) :
    (deleteViewer db streamId viewerId).db.streams = db.streams ∧
      (deleteViewer db streamId viewerId).db.viewers.Sublist db.viewers := by
  rcases deleteViewer_cases db streamId viewerId with h | h | ⟨-, h⟩ <;> rw [h]
  · exact ⟨rfl, List.Sublist.refl _⟩
  · exact ⟨rfl, List.Sublist.refl _⟩
  · exact ⟨rfl, filter_sublist⟩

theorem Db.streamDeleteIfPending_sublist (db : Db) (id : String) :
    (db.streamDeleteIfPending id).1.streams.Sublist db.streams ∧
      (db.streamDeleteIfPending id).1.viewers.Sublist db.viewers := by
  unfold Db.streamDeleteIfPending
  dsimp only
  split_ifs
  · exact ⟨filter_sublist, filter_sublist⟩
  · exact ⟨List.Sublist.refl _, List.Sublist.refl _⟩

/-- The rows an operation leaves: the old ones in full, or only some of them, or the old ones with
other flags. -/
theorem KeyWrite.uniqueId (hw : KeyWrite cmd db db') (hid : UniqueOn (·.id) db.streams) :
    UniqueOn (·.id) db'.streams := by
  cases hw with
  | createStream s v token hc hi =>
    obtain ⟨-, -, db₁, hins, hvin⟩ := Db.streamAddWithViewerWithToken_eq_ok.1 hi
    obtain ⟨hne, rfl⟩ := Db.insertStream_eq_some.1 hins
    obtain ⟨-, -, rfl⟩ := Db.insertViewer_eq_some.1 hvin
    exact hid.append fun r hr => (hne r hr).1
  | seedStream s token hc hi =>
    obtain ⟨-, hins⟩ := Db.streamInsertOnlyWithToken_eq_ok.1 hi
    obtain ⟨hne, rfl⟩ := Db.insertStream_eq_some.1 hins
    exact hid.append fun r hr => (hne r hr).1
  | addViewer v hc hi =>
    obtain ⟨-, -, hins⟩ := Db.viewerAdd_eq_ok.1 hi
    obtain ⟨-, -, rfl⟩ := Db.insertViewer_eq_some.1 hins
    exact hid
  | setFlags p enabled pendingDelete => exact hid.updateWhere p fun _ => rfl
  | deleteStream id hc => exact hid.sublist (db.streamDeleteIfPending_sublist id).1
  | deleteViewer streamId viewerId =>
    rw [(deleteViewer_sublist db streamId viewerId).1]
    exact hid
  | other hs hv =>
    rw [hs]
    exact hid

theorem KeyWrite.keysIdentify (hcmd : cmd.WellKeyed) (hw : KeyWrite cmd db db')
    (hid : UniqueOn (·.id) db.streams) (h : db.KeysIdentify) : db'.KeysIdentify := by
  cases hw with
  | createStream s v token hc hi =>
    subst hc
    exact h.streamAddWithViewer hcmd hi
  | seedStream s token hc hi => exact h.streamInsertOnly (hcmd.seeded hc) hi
  | addViewer v hc hi => exact h.viewerAdd hid (hcmd.added hc) hi
  | setFlags p enabled pendingDelete => exact h.setStreamFlags p enabled pendingDelete
  | deleteStream id hc =>
    obtain ⟨hs, hv⟩ := db.streamDeleteIfPending_sublist id
    exact h.sublist hs hv
  | deleteViewer streamId viewerId =>
    obtain ⟨hs, hv⟩ := deleteViewer_sublist db streamId viewerId
    exact h.sublist (hs ▸ List.Sublist.refl _) hv
  | other hs hv => exact h.sublist (hs ▸ List.Sublist.refl _) (hv ▸ List.Sublist.refl _)

/-- **Access keys identify one grant.** In every state that a log with valid keys reaches, no key is
used twice but by a stream and its default viewer. -/
theorem access_keys_identify {db : Db} (hok : SchemaOk db) (hkeys : db.KeysIdentify)
    {log : List Entry} (hlog : ∀ e ∈ log, ∀ cmd, e.payload = .normal cmd → cmd.WellKeyed) :
    (rowsAfter db log).KeysIdentify := by
  have hstep : ∀ e ∈ log, ∀ d : Db, (UniqueOn (·.id) d.streams ∧ d.KeysIdentify) →
      UniqueOn (·.id) (applyEntry d e).db.streams ∧ (applyEntry d e).db.KeysIdentify := by
    intro e he d
    refine applyEntry_inv (I := fun d => UniqueOn (·.id) d.streams ∧ d.KeysIdentify) ?_
    intro cmd hcmd d d' hw h
    exact ⟨hw.uniqueId h.1, hw.keysIdentify (hlog e he cmd hcmd) h.1 h.2⟩
  exact (rowsAfter_inv hstep ⟨hok.streamId, hkeys⟩).2

/-- A stream with keys of the least length, and a second viewer of it. -/
def keyedStream : Stream :=
  ⟨"s", "cam", "live", "pub_0000000000000000000000000000", "play_000000000000000000000000000",
    "stats_00000000000000000000000000", true, 0⟩

def keyedDefaultViewer : StreamViewer :=
  ⟨"v1", "s", "Player 1", "play_000000000000000000000000000", true, 0⟩

def keyedViewer : StreamViewer :=
  ⟨"v2", "s", "Player 2", "play_000000000000000000000000001", true, 1⟩

def keyedCreate : Entry :=
  ⟨⟨1, 1, 1⟩, .normal (.createStream keyedStream keyedDefaultViewer "t")⟩

def keyedLog : List Entry := [keyedCreate, ⟨⟨1, 1, 2⟩, .normal (.createViewer keyedViewer)⟩]

theorem access_keys_identify_viewers :
    (rowsAfter Db.empty keyedLog).viewers = [keyedDefaultViewer, keyedViewer] ∧
      (rowsAfter Db.empty keyedLog).KeysIdentify := by
  refine ⟨by decide +kernel, access_keys_identify SchemaOk.empty ?_ ?_⟩
  · decide
  · intro e he cmd hcmd
    simp only [keyedLog, mem_cons, not_mem_nil, or_false] at he
    rcases he with rfl | rfl
    · cases hcmd
      show keyedStream.WellKeyed
      decide +kernel
    · cases hcmd
      show isValidAccessKey _ = true
      decide +kernel

/-! ### The default viewer -/

/-- The stream `id` has the play key `key`, and so has one of its viewers. -/
def Db.HasDefaultViewer (db : Db) (id key : String) : Prop :=
  (∃ r ∈ db.streams, r.id = id ∧ r.playKey = key) ∧
    ∃ w ∈ db.viewers, w.streamId = id ∧ w.playKey = key

section DefaultViewer

variable {db db' : Db} {id key : String}

theorem Db.HasDefaultViewer.extend (h : db.HasDefaultViewer id key)
    (hs : ∀ r ∈ db.streams, r ∈ db'.streams) (hv : ∀ w ∈ db.viewers, w ∈ db'.viewers) :
    db'.HasDefaultViewer id key := by
  obtain ⟨⟨r, hr, hrow⟩, w, hw, hviewer⟩ := h
  exact ⟨⟨r, hs r hr, hrow⟩, w, hv w hw, hviewer⟩

theorem Db.HasDefaultViewer.setStreamFlags (h : db.HasDefaultViewer id key)
    (p : StreamRow → Bool) (enabled pendingDelete : Bool) :
    (db.setStreamFlags p enabled pendingDelete).HasDefaultViewer id key := by
  obtain ⟨⟨r, hr, hid, hkey⟩, hviewer⟩ := h
  refine ⟨⟨_, mem_updateWhere.2 ⟨r, hr, rfl⟩, ?_⟩, hviewer⟩
  split_ifs
  · exact ⟨hid, hkey⟩
  · exact ⟨hid, hkey⟩

theorem Db.HasDefaultViewer.deleteViewer (hid : UniqueOn (·.id) db.streams)
    (h : db.HasDefaultViewer id key) (streamId viewerId : String) :
    (deleteViewer db streamId viewerId).db.HasDefaultViewer id key := by
  obtain ⟨⟨r, hr, hrid, hrkey⟩, w, hw, hwid, hwkey⟩ := h
  by_cases hthis : w.streamId = streamId ∧ w.id = viewerId
  · have hlisted : w ∈ db.viewerList streamId := by
      rw [viewerList, orderByCreatedAt, mem_insertionSort]
      exact mem_filter.2 ⟨hw, decide_eq_true hthis.1⟩
    have hrow : db.streamGet streamId = some r.toStream := by
      rw [streamGet, streamRow, hid.lookup_eq_some.2 ⟨hr, hrid.trans (hwid.symm.trans hthis.1)⟩]
      rfl
    have hrefused : ((db.streamGet streamId).any fun stream =>
        (db.viewerList streamId).any fun v => v.id = viewerId ∧ v.playKey = stream.playKey) = true := by
      rw [hrow, Option.any_some, any_eq_true]
      exact ⟨w, hlisted, decide_eq_true ⟨hthis.2, hwkey.trans hrkey.symm⟩⟩
    have hkept : (RtmpServer.deleteViewer db streamId viewerId).db = db := by
      unfold RtmpServer.deleteViewer
      dsimp only
      rw [if_pos hrefused]
      split_ifs <;> rfl
    rw [hkept]
    exact ⟨⟨r, hr, hrid, hrkey⟩, w, hw, hwid, hwkey⟩
  · have hleft : w ∈ (db.viewerDelete streamId viewerId).1.viewers :=
      mem_deleteWhere.2 ⟨hw, decide_eq_false hthis⟩
    have hstay : w ∈ (RtmpServer.deleteViewer db streamId viewerId).db.viewers := by
      rcases deleteViewer_cases db streamId viewerId with hc | hc | ⟨-, hc⟩ <;> rw [hc]
      · exact hw
      · exact hw
      · exact hleft
    rw [Db.HasDefaultViewer, (deleteViewer_sublist db streamId viewerId).1]
    exact ⟨⟨r, hr, hrid, hrkey⟩, w, hstay, hwid, hwkey⟩

theorem Db.HasDefaultViewer.deleteStream (h : db.HasDefaultViewer id key) {other : String}
    (hne : id ≠ other) : (db.streamDeleteIfPending other).1.HasDefaultViewer id key := by
  unfold Db.streamDeleteIfPending
  dsimp only
  split_ifs
  · obtain ⟨⟨r, hr, hrid, hrkey⟩, w, hw, hwid, hwkey⟩ := h
    refine ⟨⟨r, mem_deleteWhere.2 ⟨hr, decide_eq_false ?_⟩, hrid, hrkey⟩,
      w, mem_deleteWhere.2 ⟨hw, decide_eq_false ?_⟩, hwid, hwkey⟩
    · exact fun hdel => hne (hrid.symm.trans hdel.1)
    · exact fun hdel => hne (hwid.symm.trans hdel)
  · exact h

theorem Db.streamDeleteIfPending_of_hasStream (hid : UniqueOn (·.id) db.streams)
    (h : (db.streamDeleteIfPending id).1.hasStream id) :
    (db.streamDeleteIfPending id).1 = db := by
  unfold Db.streamDeleteIfPending at h ⊢
  dsimp only at h ⊢
  split_ifs at h ⊢ with hp
  · obtain ⟨t, ht, htid⟩ := Db.hasStream_iff.1 h
    obtain ⟨htmem, hkept⟩ := mem_deleteWhere.1 ht
    obtain ⟨q, hq, hqp⟩ := any_eq_true.1 hp
    have hsame : t = q := hid.eq_of_key htmem hq (htid.trans (of_decide_eq_true hqp).1.symm)
    rw [hsame, hqp] at hkept
    cases hkept
  · rfl

theorem KeyWrite.hasDefaultViewer {cmd : ClusterCommand} (hw : KeyWrite cmd db db')
    (hid : UniqueOn (·.id) db.streams) (h : db.HasDefaultViewer id key)
    (hcmd : cmd ≠ .finalizeDeleteStream id) : db'.HasDefaultViewer id key := by
  cases hw with
  | createStream s v token hc hi =>
    obtain ⟨-, -, db₁, hins, hvin⟩ := Db.streamAddWithViewerWithToken_eq_ok.1 hi
    obtain ⟨-, rfl⟩ := Db.insertStream_eq_some.1 hins
    obtain ⟨-, -, rfl⟩ := Db.insertViewer_eq_some.1 hvin
    exact h.extend (fun r hr => mem_append_left _ hr) fun w hw => mem_append_left _ hw
  | seedStream s token hc hi =>
    obtain ⟨-, hins⟩ := Db.streamInsertOnlyWithToken_eq_ok.1 hi
    obtain ⟨-, rfl⟩ := Db.insertStream_eq_some.1 hins
    exact h.extend (fun r hr => mem_append_left _ hr) fun w hw => hw
  | addViewer v hc hi =>
    obtain ⟨-, -, hins⟩ := Db.viewerAdd_eq_ok.1 hi
    obtain ⟨-, -, rfl⟩ := Db.insertViewer_eq_some.1 hins
    exact h.extend (fun r hr => hr) fun w hw => mem_append_left _ hw
  | setFlags p enabled pendingDelete => exact h.setStreamFlags p enabled pendingDelete
  | deleteStream other hc =>
    refine h.deleteStream fun heq => hcmd ?_
    rw [hc, heq]
  | deleteViewer streamId viewerId => exact h.deleteViewer hid streamId viewerId
  | other hs hv =>
    rw [Db.HasDefaultViewer, hs, hv]
    exact h

theorem Db.HasDefaultViewer.applyEntry (hok : SchemaOk db) (h : db.HasDefaultViewer id key)
    {e : Entry} (hexists : (RtmpServer.applyEntry db e).db.hasStream id) :
    (RtmpServer.applyEntry db e).db.HasDefaultViewer id key := by
  by_cases hdel : e.payload = .normal (.finalizeDeleteStream id)
  · have hdb : (RtmpServer.applyEntry db e).db = (db.streamDeleteIfPending id).1 := by
      unfold RtmpServer.applyEntry
      rw [hdel]
      exact finalizeDeleteStream_db _ db id
    rw [hdb] at hexists ⊢
    rw [Db.streamDeleteIfPending_of_hasStream hok.streamId hexists]
    exact h
  · refine (applyEntry_inv (I := fun d => UniqueOn (·.id) d.streams ∧ d.HasDefaultViewer id key)
      ?_ ⟨hok.streamId, h⟩).2
    intro cmd hcmd d d' hw hd
    refine ⟨hw.uniqueId hd.1, hw.hasDefaultViewer hd.1 hd.2 ?_⟩
    rintro rfl
    exact hdel hcmd

theorem Db.HasDefaultViewer.rowsAfter {log : List Entry} (hok : SchemaOk db)
    (h : db.HasDefaultViewer id key)
    (hexists : ∀ rest, rest <+: log → (RtmpServer.rowsAfter db rest).hasStream id) :
    (RtmpServer.rowsAfter db log).HasDefaultViewer id key := by
  induction log generalizing db with
  | nil => exact h
  | cons e log ih =>
    have hnext : (RtmpServer.applyEntry db e).db.hasStream id = true :=
      hexists [e] (prefix_append [e] log)
    refine ih (applyEntry_schemaOk hok e) (h.applyEntry hok hnext) fun rest hrest => ?_
    exact hexists (e :: rest) (cons_prefix_cons.2 ⟨rfl, hrest⟩)

end DefaultViewer

theorem rowsAfter_schemaOk {db : Db} (hok : SchemaOk db) (log : List Entry) :
    SchemaOk (rowsAfter db log) :=
  rowsAfter_inv (I := SchemaOk) (fun e _ _ h => applyEntry_schemaOk h e) hok

theorem createStream_hasDefaultViewer {db : Db} {token : String}
    (he : e.payload = .normal (.createStream s v token))
    (hcreated : (applyEntry db e).response = .ok) :
    (applyEntry db e).db.HasDefaultViewer s.id s.playKey := by
  unfold applyEntry at hcreated ⊢
  rw [he] at hcreated ⊢
  simp only [applyNormal, applyCommand] at hcreated ⊢
  cases h : db.streamAddWithViewerWithToken s v (createToken s token) with
  | error err =>
    rw [h] at hcreated
    cases err <;> cases hcreated
  | ok db' =>
    obtain ⟨⟨hsid, hkey⟩, -, db₁, hins, hvin⟩ := Db.streamAddWithViewerWithToken_eq_ok.1 h
    obtain ⟨-, rfl⟩ := Db.insertStream_eq_some.1 hins
    obtain ⟨-, -, rfl⟩ := Db.insertViewer_eq_some.1 hvin
    exact ⟨⟨_, mem_append_right _ mem_cons_self, rfl, rfl⟩,
      v, mem_append_right _ mem_cons_self, hsid, hkey⟩

def Db.defaultViewers (db : Db) (r : StreamRow) : Nat :=
  db.viewers.countP fun w => w.streamId = r.id ∧ w.playKey = r.playKey

/-- **The default viewer stays with its stream.** As long as the row of a `CreateStream` is there,
exactly one viewer of the stream holds its play key. -/
theorem default_viewer_kept (before after : List Entry) {e : Entry} {s : Stream}
    {v : StreamViewer} {token : String} (he : e.payload = .normal (.createStream s v token))
    (hcreated : (applyEntry (rowsAfter Db.empty before) e).response = .ok)
    (hexists : ∀ rest, rest <+: after →
      (rowsAfter Db.empty (before ++ e :: rest)).hasStream s.id = true) :
    ∃ r, (rowsAfter Db.empty (before ++ e :: after)).streamRow s.id = some r ∧
      (rowsAfter Db.empty (before ++ e :: after)).defaultViewers r = 1 ∧
      0 < (rowsAfter Db.empty (before ++ e :: after)).viewers.countP fun w => w.streamId = s.id := by
  have happend (rest : List Entry) : rowsAfter Db.empty (before ++ e :: rest) =
      rowsAfter (applyEntry (rowsAfter Db.empty before) e).db rest := by
    simp [rowsAfter, foldl_append]
  have hok := rowsAfter_schemaOk SchemaOk.empty before
  simp only [happend] at hexists ⊢
  obtain ⟨⟨r, hr, hrid, hrkey⟩, w, hw, hwid, hwkey⟩ :=
    (createStream_hasDefaultViewer he hcreated).rowsAfter (applyEntry_schemaOk hok e) hexists
  have hok' := rowsAfter_schemaOk (applyEntry_schemaOk hok e) after
  refine ⟨r, (Db.streamRow_eq_some hok').2 ⟨hr, hrid⟩, ?_, ?_⟩
  · refine hok'.viewerKey.countP_eq_one hw (decide_eq_true ⟨?_, ?_⟩) fun u _ hu => ?_
    · exact hwid.trans hrid.symm
    · exact hwkey.trans hrkey.symm
    · exact (of_decide_eq_true hu).2.trans (hrkey.trans hwkey.symm)
  · exact countP_pos_iff.2 ⟨w, hw, decide_eq_true hwid⟩

/-- A second viewer is added, and then the default viewer is to be deleted. -/
def deleteDefaultLog : List Entry :=
  [⟨⟨1, 1, 2⟩, .normal (.createViewer keyedViewer)⟩, ⟨⟨1, 1, 3⟩, .normal (.deleteViewer "s" "v1")⟩]

theorem default_viewer_kept_refused :
    ∃ r, (rowsAfter Db.empty ([] ++ keyedCreate :: deleteDefaultLog)).streamRow "s" = some r ∧
      (rowsAfter Db.empty ([] ++ keyedCreate :: deleteDefaultLog)).defaultViewers r = 1 ∧
      0 < (rowsAfter Db.empty ([] ++ keyedCreate :: deleteDefaultLog)).viewers.countP
        fun w => w.streamId = "s" := by
  have hexists : ∀ rest ∈ deleteDefaultLog.inits,
      (rowsAfter Db.empty ([] ++ keyedCreate :: rest)).hasStream "s" = true := by decide +kernel
  have hcreated : (applyEntry (rowsAfter Db.empty []) keyedCreate).response = .ok := by
    decide +kernel
  exact default_viewer_kept [] deleteDefaultLog rfl hcreated fun rest hrest =>
    hexists rest ((mem_inits _ _).2 hrest)

end RtmpServer
