import RtmpServer.Cluster.Agreement
import RtmpServer.Cluster.StorageErrors

/-!
# Seeding a cluster from a standalone server

`seedFromLocalDb` is the command with which a bootstrapping node puts its standalone rows into the
log. The node itself applies it on the database it was read from, where it should change nothing,
and every other node on an empty one, where it should produce the same rows (`SeedFaithful`).

The seed goes through the ordinary inserts. Their key check refuses a valid key that two streams
share, or that a viewer shares with a stream it is not the default viewer of, so the row is missing
on the other nodes. A viewer with a key the check ignores reaches the insert on the bootstrapping
node, and fails there when its stream is already pending. `SeedSafe` excludes just these.
-/

namespace RtmpServer

open List Lib.Table

variable {viewers : List StreamViewer} {db : Db} {tokens : List (String × String)}
  {streams : List Stream} {l l' : List Stream} {I : Db → Prop} {s : Stream}

/-- The command with the rows of `db`, as `read_replicated_snapshot` returns them. -/
def seedCommand (db : Db) : ClusterCommand :=
  let snap := buildAppSnapshot db none
  .seedFromStandalone snap.streams snap.viewers db.streamDeleteTokens snap.apiToken
    snap.pendingDeleteStreamIds

/-- `seed_from_local_db`; an empty server writes nothing. -/
def seedFromLocalDb (db : Db) : Option ClusterCommand :=
  let snap := buildAppSnapshot db none
  if snap.streams.isEmpty && snap.viewers.isEmpty && snap.apiToken.isNone then none
  else some (seedCommand db)

def Db.Blank (db : Db) : Prop := db.streams = [] ∧ db.viewers = [] ∧ db.tokenGet = none

/-- What is seeded: the stream rows with tokens and marks, the viewers and the API token. -/
structure SameSeeded (db db' : Db) : Prop where
  streams : db.streams.Perm db'.streams
  viewers : db.viewers.Perm db'.viewers
  apiToken : db.tokenGet = db'.tokenGet

/-- The seed of `db` is applied without an error, leaves `db` as it is and rebuilds its rows on a
blank database. -/
def SeedFaithful (db : Db) : Prop :=
  ∀ cmd, seedFromLocalDb db = some cmd → ∀ index,
    ((applyNormal index db cmd).response.isError = false ∧
      SameTables (applyNormal index db cmd).db db) ∧
    ∀ blank : Db, blank.Blank →
      (applyNormal index blank cmd).response.isError = false ∧
        SameSeeded (applyNormal index blank cmd).db db

def Stream.keys (s : Stream) : List String := [s.publishKey, s.playKey, s.statsKey]

def StreamKeysApart (streams : List Stream) : Prop :=
  ∀ s ∈ streams, ∀ t ∈ streams, s.id ≠ t.id →
    ∀ key ∈ s.keys, isValidAccessKey key = true → key ∉ t.keys

/-- A viewer whose valid key is also a key of a stream is the default viewer of its own. -/
def ViewerKeysApart (streams : List Stream) (viewers : List StreamViewer) : Prop :=
  ∀ v ∈ viewers, isValidAccessKey v.playKey = true → (∃ s ∈ streams, v.playKey ∈ s.keys) →
    ∃ t ∈ streams, t.id = v.streamId ∧ t.playKey = v.playKey

structure SeedSafe (db : Db) : Prop where
  pendingViewers : ∀ v ∈ db.viewers, ∀ s ∈ db.streams, s.id = v.streamId →
    s.pendingDelete = true → isValidAccessKey v.playKey = true ∨ v.playKey = s.playKey
  pendingDisabled : ∀ s ∈ db.streams, s.pendingDelete = true → s.enabled = false
  streamKeys : StreamKeysApart (db.streams.map (·.toStream))
  viewerKeys : ViewerKeysApart (db.streams.map (·.toStream)) db.viewers

/-! ### Key checks -/

namespace Db

variable {db : Db}
variable {v : StreamViewer}

theorem keyGloballyInUse_iff {key : String} :
    db.keyGloballyInUse key ↔ isValidAccessKey key ∧
      ((∃ s ∈ db.streams.map (·.toStream), key ∈ s.keys) ∨ ∃ v ∈ db.viewers, v.playKey = key) := by
  simp only [keyGloballyInUse, Bool.and_eq_true, Bool.or_eq_true, any_eq_true,
    decide_eq_true_eq, mem_map, Stream.keys, mem_cons, not_mem_nil, or_false,
    exists_exists_and_eq_and]
  simp only [eq_comm]

theorem streamKeysInUse_iff {s : Stream} :
    db.streamKeysInUse s ↔ ∃ key ∈ s.keys, db.keyGloballyInUse key = true := by
  simp [streamKeysInUse, Stream.keys]

def isDefaultViewer (db : Db) (v : StreamViewer) : Prop :=
  ∃ t ∈ db.streams.map (·.toStream), t.id = v.streamId ∧ t.playKey = v.playKey

theorem isDefaultViewer_iff (hid : UniqueOn (·.id) db.streams) :
    (db.streamRow v.streamId).map (·.playKey) = some v.playKey ↔ db.isDefaultViewer v := by
  rw [Option.map_eq_some_iff]
  constructor
  · rintro ⟨r, hr, hk⟩
    obtain ⟨hmem, hrid⟩ := hid.lookup_eq_some.1 hr
    exact ⟨r.toStream, mem_map_of_mem hmem, hrid, hk⟩
  · rintro ⟨t, ht, htid, hk⟩
    obtain ⟨r, hr, rfl⟩ := mem_map.1 ht
    exact ⟨r, hid.lookup_eq_some.2 ⟨hr, htid⟩, hk⟩

theorem viewerKeyTaken_iff (hid : UniqueOn (·.id) db.streams) :
    db.viewerKeyTaken v ↔
      db.isDefaultViewer v ∧ (∃ r ∈ db.viewers, r.playKey = v.playKey) ∨
        ¬ db.isDefaultViewer v ∧ db.keyGloballyInUse v.playKey = true := by
  unfold viewerKeyTaken
  by_cases h : db.isDefaultViewer v
  · rw [if_pos ((isDefaultViewer_iff hid).2 h)]
    simp [h]
  · rw [if_neg fun hrow => h ((isDefaultViewer_iff hid).1 hrow)]
    simp [h]

end Db

/-! ### On the database itself -/

section Own

variable {db : Db} (hok : SchemaOk db)
variable {viewers : List StreamViewer} {v : StreamViewer}

include hok

theorem viewerKeyTaken_self (hv : v ∈ db.viewers) :
    db.viewerKeyTaken v ↔ isValidAccessKey v.playKey ∨ db.isDefaultViewer v := by
  rw [Db.viewerKeyTaken_iff hok.streamId, Db.keyGloballyInUse_iff]
  have hself : ∃ r ∈ db.viewers, r.playKey = v.playKey := ⟨v, hv, rfl⟩
  constructor
  · rintro (⟨hd, -⟩ | ⟨-, hvalid, -⟩)
    · exact .inr hd
    · exact .inl hvalid
  · intro h
    by_cases hd : db.isDefaultViewer v
    · exact .inl ⟨hd, hself⟩
    · exact .inr ⟨hd, h.resolve_right hd, .inr hself⟩

/-- The viewers that keep the seed from failing: their key is checked, or their stream is not
pending. -/
def SeedPasses (db : Db) (v : StreamViewer) : Prop :=
  db.viewerKeyTaken v = true ∨ db.parentAvailable v.streamId = true

omit hok in
theorem viewerAdd_self (hv : v ∈ db.viewers) :
    SeedPasses db v ↔ db.viewerAdd v = .error .duplicate := by
  have hself : db.viewerConstraintViolated v = true :=
    any_eq_true.2 ⟨v, hv, by simp⟩
  rw [Db.viewerAdd_eq_duplicate, SeedPasses, hself]
  simp

omit hok in
theorem seedViewers_self (hsub : ∀ v ∈ viewers, v ∈ db.viewers)
    (h : ∀ v ∈ viewers, SeedPasses db v) : seedViewers db viewers = .ok db :=
  seedViewers_of_blocked fun v hv => (viewerAdd_self (hsub v hv)).1 (h v hv)

omit hok in
/-- The viewer loop over stored viewers never inserts, and it fails at the first that does not
pass. -/
theorem seedPasses_of_ok (hsub : ∀ v ∈ viewers, v ∈ db.viewers) {d : Db}
    (h : seedViewers db viewers = .ok d) : ∀ v ∈ viewers, SeedPasses db v := by
  induction viewers with
  | nil => simp
  | cons w rest ih =>
    intro v hv
    have hw := hsub w mem_cons_self
    by_cases hpass : SeedPasses db w
    · rw [seedViewers, (viewerAdd_self hw).1 hpass] at h
      rcases mem_cons.1 hv with rfl | hv
      · exact hpass
      · exact ih (fun u hu => hsub u (mem_cons_of_mem _ hu)) h v hv
    · rw [SeedPasses, not_or, Bool.not_eq_true, Bool.not_eq_true] at hpass
      rw [seedViewers, Db.viewerAdd_eq_parentUnavailable.2 hpass] at h
      cases h

theorem seedPasses_iff :
    (∀ v ∈ db.viewers, SeedPasses db v) ↔
      ∀ v ∈ db.viewers, ∀ s ∈ db.streams, s.id = v.streamId →
        s.pendingDelete → isValidAccessKey v.playKey ∨ v.playKey = s.playKey := by
  refine forall₂_congr fun v hv => ?_
  rw [SeedPasses, viewerKeyTaken_self hok hv]
  obtain ⟨s, hs, hsid⟩ := hok.viewerParent v hv
  have honly : ∀ t ∈ db.streams, t.id = v.streamId → t = s := fun t ht htid =>
    hok.streamId.eq_of_key ht hs (htid.trans hsid.symm)
  have hdefault : db.isDefaultViewer v ↔ v.playKey = s.playKey := by
    constructor
    · rintro ⟨t, ht, htid, hk⟩
      obtain ⟨r, hr, rfl⟩ := mem_map.1 ht
      rw [← honly r hr htid]
      exact hk.symm
    · intro hk
      exact ⟨s.toStream, mem_map_of_mem hs, hsid, hk.symm⟩
  have hparent : db.parentAvailable v.streamId = true ↔ s.pendingDelete = false := by
    rw [Db.parentAvailable, any_eq_true]
    constructor
    · rintro ⟨t, ht, h⟩
      obtain ⟨htid, hnp⟩ := of_decide_eq_true h
      rw [← honly t ht htid]
      exact hnp
    · intro hnp
      exact ⟨s, hs, decide_eq_true ⟨hsid, hnp⟩⟩
  rw [hdefault, hparent]
  constructor
  · intro h t ht htid hp
    rw [honly t ht htid] at hp ⊢
    rcases h with h | h
    · exact h
    · rw [hp] at h
      cases h
  · intro h
    cases hp : s.pendingDelete with
    | false => exact .inr rfl
    | true => exact .inl (h s hs hsid hp)

omit hok in
theorem elim_tokenReplace (token : Option String) :
    token.elim db db.tokenReplace = { db with apiToken := token <|> db.apiToken } := by
  cases token <;> rfl

omit hok in
theorem tokenReplace_self : db.tokenGet.elim db db.tokenReplace = db := by
  rw [elim_tokenReplace]
  cases ht : db.tokenGet with
  | none => rfl
  | some token =>
    have hself : db.apiToken = some token := (Option.filter_eq_some_iff.1 ht).1
    show { db with apiToken := some token } = db
    rw [← hself]

omit hok in
theorem seedStreams_self (tokens : List (String × String)) :
    seedStreams tokens db (buildAppSnapshot db none).streams = .ok db := by
  refine seedStreams_of_blocked fun s hs => .inr ?_
  obtain ⟨r, hr, rfl⟩ := mem_map.1 ((build_streams_perm db none).mem_iff.1 hs)
  exact any_eq_true.2 ⟨r, hr, by simp⟩

omit hok in
theorem seedCommand_self_isError (index : UInt64) :
    (applyNormal index db (seedCommand db)).response.isError = false ↔
      ∀ v ∈ db.viewers, SeedPasses db v := by
  have hmem {v : StreamViewer} : v ∈ (buildAppSnapshot db none).viewers ↔ v ∈ db.viewers :=
    (build_viewers_perm db none).mem_iff
  constructor
  · intro h v hv
    simp only [applyNormal, applyCommand, seedCommand, seedFromStandalone, seedStreams_self] at h
    cases hvs : seedViewers db (buildAppSnapshot db none).viewers with
    | ok d => exact seedPasses_of_ok (fun w => hmem.1) hvs v (hmem.2 hv)
    | error d =>
      rw [hvs] at h
      cases h
  · intro h
    have hvs := seedViewers_self (fun v => hmem.1) fun v hv => h v (hmem.1 hv)
    simp only [applyNormal, applyCommand, seedCommand, seedFromStandalone, seedStreams_self, hvs]
    rfl

omit hok in
theorem seedCommand_self_db (hpass : ∀ v ∈ db.viewers, SeedPasses db v) (index : UInt64) :
    (applyNormal index db (seedCommand db)).db =
      db.setStreamFlags (fun r => decide (r.id ∈ (buildAppSnapshot db none).pendingDeleteStreamIds))
        false true := by
  have hmem {v : StreamViewer} : v ∈ (buildAppSnapshot db none).viewers ↔ v ∈ db.viewers :=
    (build_viewers_perm db none).mem_iff
  have hvs := seedViewers_self (fun v => hmem.1) fun v hv => hpass v (hmem.1 hv)
  have htok : (buildAppSnapshot db none).apiToken.elim db db.tokenReplace = db := tokenReplace_self
  simp only [applyNormal, applyCommand, seedCommand, seedFromStandalone, seedStreams_self, hvs,
    htok]
  exact seedPending_eq db _

theorem sameTables_setPending :
    SameTables (db.setStreamFlags (fun r =>
        decide (r.id ∈ (buildAppSnapshot db none).pendingDeleteStreamIds)) false true) db ↔
      ∀ s ∈ db.streams, s.pendingDelete → s.enabled = false := by
  constructor
  · intro h s hs hp
    obtain ⟨a, ha, hsa⟩ := mem_updateWhere.1 (h.streams.mem_iff.2 hs)
    split_ifs at hsa with hpend
    · rw [← hsa]
      rfl
    · subst hsa
      exact absurd (decide_eq_true ((mem_pendingIds hok ha).2 hp)) hpend
  · intro h
    have hfixed : ∀ r ∈ db.streams,
        decide (r.id ∈ (buildAppSnapshot db none).pendingDeleteStreamIds) = true →
          r.withFlags false true = r := by
      intro r hr hpend
      have hp := (mem_pendingIds hok hr).1 (of_decide_eq_true hpend)
      have hen := h r hr hp
      simp only [StreamRow.withFlags]
      rw [← hp, ← hen]
    rw [Db.setStreamFlags, updateWhere_of_fixed hfixed]

end Own

/-! ### On a blank database -/

theorem seedStreams_apart (tokens : List (String × String)) (l : List Stream) (db : Db)
    (huniq : StreamKeysUnique (db.streams.map (·.toStream) ++ l))
    (hapart : StreamKeysApart (db.streams.map (·.toStream) ++ l)) (hv : db.viewers = []) :
    seedStreams tokens db l =
      .ok { db with streams := db.streams ++ l.map fun s => ⟨s, false, seedToken tokens s⟩ } := by
  induction l generalizing db with
  | nil => simp [seedStreams]
  | cons s l ih =>
    have hne : ∀ r ∈ db.streams, r.id ≠ s.id ∧ r.publishKey ≠ s.publishKey ∧
        r.playKey ≠ s.playKey ∧ r.statsKey ≠ s.statsKey := by
      intro r hr
      have hm : r.toStream ∈ db.streams.map (·.toStream) := mem_map_of_mem hr
      exact ⟨huniq.id.ne_of_append _ hm, huniq.publishKey.ne_of_append _ hm,
        huniq.playKey.ne_of_append _ hm, huniq.statsKey.ne_of_append _ hm⟩
    have hfree : db.streamKeysInUse s = false := by
      rw [Bool.eq_false_iff]
      intro huse
      obtain ⟨key, hkey, hin⟩ := Db.streamKeysInUse_iff.1 huse
      obtain ⟨hvalid, ⟨t, ht, htk⟩ | ⟨v, hmem, -⟩⟩ := Db.keyGloballyInUse_iff.1 hin
      · have hst : s.id ≠ t.id := (huniq.id.ne_of_append _ ht).symm
        exact hapart s (by simp) t (mem_append_left _ ht) hst key hkey hvalid htk
      · rw [hv] at hmem
        cases hmem
    rw [seedStreams, Db.streamInsertOnlyWithToken_eq_ok.2
      ⟨hfree, Db.insertStream_eq_some.2 ⟨hne, rfl⟩⟩]
    dsimp only
    rw [ih]
    · simp
    · simpa using huniq
    · simpa using hapart
    · exact hv

theorem seedViewers_apart (l : List StreamViewer) (db : Db)
    (hstream : UniqueOn (·.id) db.streams) (hid : UniqueOn (·.id) (db.viewers ++ l))
    (hkey : UniqueOn (·.playKey) (db.viewers ++ l))
    (hparent : ∀ v ∈ l, db.parentAvailable v.streamId)
    (hapart : ViewerKeysApart (db.streams.map (·.toStream)) l) :
    seedViewers db l = .ok { db with viewers := db.viewers ++ l } := by
  induction l generalizing db with
  | nil => simp [seedViewers]
  | cons v l ih =>
    have hne : ∀ r ∈ db.viewers, r.id ≠ v.id ∧ r.playKey ≠ v.playKey := fun r hr =>
      ⟨hid.ne_of_append r hr, hkey.ne_of_append r hr⟩
    have hfree : db.viewerKeyTaken v = false := by
      rw [Bool.eq_false_iff]
      intro htaken
      rcases (Db.viewerKeyTaken_iff hstream).1 htaken with ⟨-, r, hr, hrk⟩ | ⟨hnd, hin⟩
      · exact (hne r hr).2 hrk
      · obtain ⟨hvalid, hs | ⟨r, hr, hrk⟩⟩ := Db.keyGloballyInUse_iff.1 hin
        · exact hnd (hapart v mem_cons_self hvalid hs)
        · exact (hne r hr).2 hrk
    have hav := hparent v mem_cons_self
    have hins : db.insertViewer v = some { db with viewers := db.viewers ++ [v] } :=
      Db.insertViewer_eq_some.2
        ⟨hne, Db.hasStream_iff.1 (Db.hasStream_of_parentAvailable hav), rfl⟩
    rw [seedViewers, Db.viewerAdd_eq_ok.2 ⟨hfree, hav, hins⟩]
    dsimp only
    rw [ih]
    · simp
    · exact hstream
    · simpa using hid
    · simpa using hkey
    · exact fun w hw => hparent w (mem_cons_of_mem _ hw)
    · exact fun w hw => hapart w (mem_cons_of_mem _ hw)

def seededRow (db : Db) (s : Stream) : StreamRow :=
  let row : StreamRow := ⟨s, false, seedToken db.streamDeleteTokens s⟩
  if s.id ∈ (buildAppSnapshot db none).pendingDeleteStreamIds then row.withFlags false true else row

theorem seededRow_toStream (hok : SchemaOk db)
    (hdis : ∀ s ∈ db.streams, s.pendingDelete → s.enabled = false) {r : StreamRow}
    (hr : r ∈ db.streams) : seededRow db r.toStream = r := by
  have htok : seedToken db.streamDeleteTokens r.toStream = r.deleteToken := by
    rw [seedToken, tokenFor_streamDeleteTokens hok hr, Option.getD_some]
  have hpend : r.id ∈ (buildAppSnapshot db none).pendingDeleteStreamIds ↔
      r.pendingDelete = true := mem_pendingIds hok hr
  unfold seededRow
  rw [htok]
  cases hp : r.pendingDelete with
  | false =>
    have hnot : r.id ∉ (buildAppSnapshot db none).pendingDeleteStreamIds := by
      rw [hpend, hp]
      nofun
    rw [if_neg hnot, ← hp]
  | true =>
    have hen := hdis r hr hp
    rw [if_pos (hpend.2 hp)]
    simp only [StreamRow.withFlags]
    rw [← hp, ← hen]

theorem StreamKeysApart.nil : StreamKeysApart [] := fun _ hs => absurd hs not_mem_nil

theorem ViewerKeysApart.nil (streams : List Stream) : ViewerKeysApart streams [] :=
  fun _ hv => absurd hv not_mem_nil

theorem StreamKeysApart.perm (h : StreamKeysApart l) (hp : l.Perm l') :
    StreamKeysApart l' := fun s hs t ht =>
  h s (hp.mem_iff.2 hs) t (hp.mem_iff.2 ht)

theorem ViewerKeysApart.perm {v v' : List StreamViewer} (h : ViewerKeysApart l v) (hp : l.Perm l')
    (hv : v.Perm v') : ViewerKeysApart l' v' := by
  intro w hw hvalid ⟨s, hs, hk⟩
  obtain ⟨t, ht, htw⟩ := h w (hv.mem_iff.2 hw) hvalid ⟨s, hp.mem_iff.2 hs, hk⟩
  exact ⟨t, hp.mem_iff.1 ht, htw⟩

section Blank

variable {db blank : Db}

/-- A blank database after the stream loop of the seed of `db`. -/
def seededStreams (db blank : Db) : Db :=
  { blank with
    streams := (buildAppSnapshot db none).streams.map fun s =>
      ⟨s, false, seedToken db.streamDeleteTokens s⟩ }

theorem seedStreams_blank (hok : SchemaOk db) (hsafe : SeedSafe db) (hb : blank.Blank) :
    seedStreams db.streamDeleteTokens blank (buildAppSnapshot db none).streams =
      .ok (seededStreams db blank) := by
  obtain ⟨hbs, hbv, -⟩ := hb
  rw [seedStreams_apart _ _ _ _ _ hbv, hbs]
  · rfl
  · rw [hbs]
    exact streamKeysUnique_build hok none
  · rw [hbs]
    exact hsafe.streamKeys.perm (build_streams_perm db none).symm

theorem seedViewers_blank (hok : SchemaOk db) (hsafe : SeedSafe db) (hb : blank.Blank) :
    seedViewers (seededStreams db blank) (buildAppSnapshot db none).viewers =
      .ok { seededStreams db blank with viewers := (buildAppSnapshot db none).viewers } := by
  have hps := build_streams_perm db none
  have hpv := build_viewers_perm db none
  have hrows : (seededStreams db blank).streams.map (·.toStream) =
      (buildAppSnapshot db none).streams := by
    unfold seededStreams
    rw [map_map]
    exact map_id _
  have hdv : (seededStreams db blank).viewers = [] := hb.2.1
  rw [seedViewers_apart, hdv]
  · rfl
  · exact (streamKeysUnique_build hok none).id.map_of_key fun _ => rfl
  · rw [hdv]
    exact hok.viewerId.perm hpv.symm
  · rw [hdv]
    exact hok.viewerKey.perm hpv.symm
  · intro v hv
    obtain ⟨s, hs, hid⟩ := hok.viewerParent v (hpv.mem_iff.1 hv)
    have hmem := hps.mem_iff.2 (mem_map_of_mem (f := (·.toStream)) hs)
    exact any_eq_true.2 ⟨_, mem_map_of_mem hmem, decide_eq_true ⟨hid, rfl⟩⟩
  · rw [hrows]
    exact hsafe.viewerKeys.perm hps.symm hpv.symm

theorem seededStreams_pending (hok : SchemaOk db) (hsafe : SeedSafe db) (blank : Db) :
    (updateWhere (fun r => decide (r.id ∈ (buildAppSnapshot db none).pendingDeleteStreamIds))
      (StreamRow.withFlags false true) (seededStreams db blank).streams).Perm db.streams := by
  have hmap : updateWhere
      (fun r => decide (r.id ∈ (buildAppSnapshot db none).pendingDeleteStreamIds))
      (StreamRow.withFlags false true) (seededStreams db blank).streams =
        (buildAppSnapshot db none).streams.map (seededRow db) := by
    rw [updateWhere, seededStreams, map_map]
    refine map_congr_left fun s _ => ?_
    show (if decide (s.id ∈ (buildAppSnapshot db none).pendingDeleteStreamIds) = true then _
      else _) = seededRow db s
    simp only [decide_eq_true_eq]
    rfl
  rw [hmap]
  calc ((buildAppSnapshot db none).streams.map (seededRow db)).Perm
        ((db.streams.map (·.toStream)).map (seededRow db)) := (build_streams_perm db none).map _
    _ = db.streams.map fun r => seededRow db r.toStream := map_map
    _ = db.streams := by
        conv_rhs => rw [← map_id db.streams]
        exact map_congr_left fun r => seededRow_toStream hok hsafe.pendingDisabled

theorem seedCommand_blank (hok : SchemaOk db) (hsafe : SeedSafe db) (hb : blank.Blank)
    (index : UInt64) :
    (applyNormal index blank (seedCommand db)).response.isError = false ∧
      SameSeeded (applyNormal index blank (seedCommand db)).db db := by
  set snap := buildAppSnapshot db none with hsnap
  set db₂ : Db := { seededStreams db blank with
    viewers := snap.viewers
    apiToken := snap.apiToken <|> blank.apiToken } with hdb₂
  have happ : applyNormal index blank (seedCommand db) =
      ⟨seedPending db₂ snap.pendingDeleteStreamIds, .ok,
        snap.apiToken.toList.map .apiToken ++
          snap.pendingDeleteStreamIds.map .drainStream⟩ := by
    simp only [applyNormal, applyCommand, seedCommand, seedFromStandalone,
      seedStreams_blank hok hsafe hb, seedViewers_blank hok hsafe hb, elim_tokenReplace]
    rfl
  rw [happ, seedPending_eq]
  refine ⟨rfl, seededStreams_pending hok hsafe blank, build_viewers_perm db none, ?_⟩
  show (db.tokenGet <|> blank.apiToken).filter (· ≠ "") = db.tokenGet
  cases ht : db.tokenGet with
  | none => exact hb.2.2
  | some token =>
    have hne := (Option.filter_eq_some_iff.1 ht).2
    exact Option.filter_eq_some_iff.2 ⟨rfl, hne⟩

end Blank

/-! ### What the inserts let through -/

theorem seedStreams_inv
    (hI : ∀ db s db', I db → db.streamInsertOnlyWithToken s (seedToken tokens s) = .ok db' → I db')
    {db d : Db} (h : seedStreams tokens db streams = .ok d) (hdb : I db) : I d := by
  induction streams generalizing db with
  | nil =>
    cases h
    exact hdb
  | cons s rest ih =>
    rw [seedStreams] at h
    cases hi : db.streamInsertOnlyWithToken s (seedToken tokens s) with
    | ok db' =>
      rw [hi] at h
      exact ih h (hI db s db' hdb hi)
    | error err =>
      cases Db.streamInsertOnlyWithToken_error hi
      rw [hi] at h
      exact ih h hdb

theorem seedViewers_inv (hI : ∀ db v db', I db → db.viewerAdd v = .ok db' → I db') {db d : Db}
    (h : seedViewers db viewers = .ok d) (hdb : I db) : I d := by
  induction viewers generalizing db with
  | nil =>
    cases h
    exact hdb
  | cons v rest ih =>
    rw [seedViewers] at h
    cases hi : db.viewerAdd v with
    | ok db' =>
      rw [hi] at h
      exact ih h (hI db v db' hdb hi)
    | error err =>
      rw [hi] at h
      cases err with
      | duplicate => exact ih h hdb
      | parentUnavailable => cases h
      | db => cases h

theorem StreamKeysApart.insert {db db' : Db} {token : String}
    (h : StreamKeysApart (db.streams.map (·.toStream)))
    (hi : db.streamInsertOnlyWithToken s token = .ok db') :
    StreamKeysApart (db'.streams.map (·.toStream)) := by
  obtain ⟨hfree, hins⟩ := Db.streamInsertOnlyWithToken_eq_ok.1 hi
  obtain ⟨-, rfl⟩ := Db.insertStream_eq_some.1 hins
  have hnew : ∀ t ∈ db.streams.map (·.toStream), ∀ key ∈ t.keys, isValidAccessKey key = true →
      key ∉ s.keys := by
    intro t ht key hkey hvalid hs
    refine Bool.eq_false_iff.1 hfree (Db.streamKeysInUse_iff.2 ⟨key, hs, ?_⟩)
    exact Db.keyGloballyInUse_iff.2 ⟨hvalid, .inl ⟨t, ht, hkey⟩⟩
  intro a ha b hb hne key hka hvalid hkb
  simp only [map_append, mem_append, map_cons, map_nil,
    mem_singleton] at ha hb
  rcases ha with ha | rfl
  · rcases hb with hb | rfl
    · exact h a ha b hb hne key hka hvalid hkb
    · exact hnew a ha key hka hvalid hkb
  · rcases hb with hb | rfl
    · exact hnew b hb key hkb hvalid hka
    · exact hne rfl

theorem ViewerKeysApart.insert {db db' : Db} {v : StreamViewer} (hid : UniqueOn (·.id) db.streams)
    (h : ViewerKeysApart (db.streams.map (·.toStream)) db.viewers) (hi : db.viewerAdd v = .ok db') :
    db'.streams = db.streams ∧ ViewerKeysApart (db'.streams.map (·.toStream)) db'.viewers := by
  obtain ⟨hfree, -, hins⟩ := Db.viewerAdd_eq_ok.1 hi
  obtain ⟨-, -, rfl⟩ := Db.insertViewer_eq_some.1 hins
  refine ⟨rfl, fun w hw hvalid hs => ?_⟩
  rcases mem_append.1 hw with hw | hw
  · exact h w hw hvalid hs
  · obtain rfl := mem_singleton.1 hw
    by_contra hnd
    exact Bool.eq_false_iff.1 hfree ((Db.viewerKeyTaken_iff hid).2
      (.inr ⟨hnd, Db.keyGloballyInUse_iff.2 ⟨hvalid, .inl hs⟩⟩))

theorem exists_of_mem_setStreamFlags {p : StreamRow → Bool} {enabled pending : Bool}
    (hs : s ∈ (db.setStreamFlags p enabled pending).streams.map (·.toStream)) :
    ∃ a ∈ db.streams.map (·.toStream), s.id = a.id ∧ s.keys = a.keys := by
  obtain ⟨r, hr, rfl⟩ := mem_map.1 hs
  obtain ⟨a, ha, rfl⟩ := mem_updateWhere.1 hr
  refine ⟨a.toStream, mem_map_of_mem ha, ?_⟩
  split_ifs <;> exact ⟨rfl, rfl⟩

theorem exists_mem_setStreamFlags (p : StreamRow → Bool) (enabled pending : Bool) {a : Stream}
    (ha : a ∈ db.streams.map (·.toStream)) :
    ∃ s ∈ (db.setStreamFlags p enabled pending).streams.map (·.toStream),
      s.id = a.id ∧ s.keys = a.keys := by
  obtain ⟨r, hr, rfl⟩ := mem_map.1 ha
  refine ⟨_, mem_map_of_mem (mem_updateWhere.2 ⟨r, hr, rfl⟩), ?_⟩
  split_ifs <;> exact ⟨rfl, rfl⟩

theorem StreamKeysApart.setStreamFlags (h : StreamKeysApart (db.streams.map (·.toStream)))
    (p : StreamRow → Bool) (enabled pending : Bool) :
    StreamKeysApart ((db.setStreamFlags p enabled pending).streams.map (·.toStream)) := by
  intro s hs t ht hne key hk hvalid
  obtain ⟨a, ha, hsid, hsk⟩ := exists_of_mem_setStreamFlags hs
  obtain ⟨b, hb, htid, htk⟩ := exists_of_mem_setStreamFlags ht
  rw [hsid, htid] at hne
  rw [hsk] at hk
  rw [htk]
  exact h a ha b hb hne key hk hvalid

theorem ViewerKeysApart.setStreamFlags (h : ViewerKeysApart (db.streams.map (·.toStream)) viewers)
    (p : StreamRow → Bool) (enabled pending : Bool) :
    ViewerKeysApart ((db.setStreamFlags p enabled pending).streams.map (·.toStream)) viewers := by
  intro v hv hvalid ⟨s, hs, hk⟩
  obtain ⟨a, ha, -, hsk⟩ := exists_of_mem_setStreamFlags hs
  rw [hsk] at hk
  obtain ⟨b, hb, hbid, hbk⟩ := h v hv hvalid ⟨a, ha, hk⟩
  obtain ⟨t, ht, htid, htk⟩ := exists_mem_setStreamFlags p enabled pending hb
  have hplay : t.playKey = b.playKey := by
    simp only [Stream.keys, cons.injEq] at htk
    exact htk.2.1
  exact ⟨t, ht, htid.trans hbid, hplay.trans hbk⟩

theorem keysApart_of_seed {apiToken : Option String} {pending : List String}
    {index : UInt64} {d : Db}
    (h : (applyNormal index .empty
      (.seedFromStandalone streams viewers tokens apiToken pending)).response.isError = false)
    (hd : (applyNormal index .empty
      (.seedFromStandalone streams viewers tokens apiToken pending)).db = d) :
    StreamKeysApart (d.streams.map (·.toStream)) ∧
      ViewerKeysApart (d.streams.map (·.toStream)) d.viewers := by
  simp only [applyNormal, applyCommand, seedFromStandalone] at h hd
  cases hs : seedStreams tokens .empty streams with
  | error db₁ =>
    rw [hs] at h
    cases h
  | ok db₁ =>
    rw [hs] at h hd
    dsimp only at h hd
    cases hv : seedViewers db₁ viewers with
    | error db₂ =>
      rw [hv] at h
      cases h
    | ok db₂ =>
      rw [hv] at hd
      dsimp only at hd
      obtain ⟨hapart, hempty⟩ : StreamKeysApart (db₁.streams.map (·.toStream)) ∧
          db₁.viewers = [] := by
        refine seedStreams_inv (I := fun db => StreamKeysApart (db.streams.map (·.toStream)) ∧
          db.viewers = []) (fun db s db' hI hi => ⟨hI.1.insert hi, ?_⟩) hs ⟨.nil, rfl⟩
        obtain ⟨-, rfl⟩ := Db.insertStream_eq_some.1 (Db.streamInsertOnlyWithToken_eq_ok.1 hi).2
        exact hI.2
      have hid := (SchemaOk.empty.seedStreams hs).streamId
      obtain ⟨hstreams, hviewers⟩ : db₂.streams = db₁.streams ∧
          ViewerKeysApart (db₂.streams.map (·.toStream)) db₂.viewers := by
        refine seedViewers_inv (I := fun db => db.streams = db₁.streams ∧
          ViewerKeysApart (db.streams.map (·.toStream)) db.viewers)
          (fun db v db' hI hi => ?_) hv ⟨rfl, ?_⟩
        · obtain ⟨hsame, hnext⟩ := hI.2.insert (hI.1 ▸ hid) hi
          exact ⟨hsame.trans hI.1, hnext⟩
        · rw [hempty]
          exact .nil _
      rw [elim_tokenReplace, seedPending_eq] at hd
      subst hd
      exact ⟨StreamKeysApart.setStreamFlags (hstreams ▸ hapart) _ _ _,
        ViewerKeysApart.setStreamFlags hviewers _ _ _⟩

/-! ### When the seed is faithful -/

theorem seedSafe_of_faithful (hok : SchemaOk db)
    (h : ∀ index, ((applyNormal index db (seedCommand db)).response.isError = false ∧
        SameTables (applyNormal index db (seedCommand db)).db db) ∧
      (applyNormal index .empty (seedCommand db)).response.isError = false ∧
        SameSeeded (applyNormal index .empty (seedCommand db)).db db) : SeedSafe db := by
  obtain ⟨⟨howner, hsame⟩, hblank, hrows⟩ := h 1
  have hpass := (seedCommand_self_isError 1).1 howner
  rw [seedCommand_self_db hpass] at hsame
  obtain ⟨hstreams, hviewers⟩ := keysApart_of_seed hblank rfl
  exact ⟨(seedPasses_iff hok).1 hpass, (sameTables_setPending hok).1 hsame,
    hstreams.perm (hrows.streams.map _), hviewers.perm (hrows.streams.map _) hrows.viewers⟩

theorem seedFromLocalDb_eq_some {cmd : ClusterCommand} (h : seedFromLocalDb db = some cmd) :
    cmd = seedCommand db := by
  unfold seedFromLocalDb at h
  dsimp only at h
  split_ifs at h
  exact (Option.some.inj h).symm

theorem seedSafe_of_none (h : seedFromLocalDb db = none) : SeedSafe db := by
  unfold seedFromLocalDb at h
  dsimp only at h
  split_ifs at h with hempty
  simp only [Bool.and_eq_true, List.isEmpty_iff] at hempty
  obtain ⟨⟨hs, hv⟩, -⟩ := hempty
  have hstreams : db.streams = [] := by
    have := build_streams_perm db none
    rw [hs] at this
    simpa using this.nil_eq.symm
  have hviewers : db.viewers = [] := by
    have := build_viewers_perm db none
    rw [hv] at this
    exact this.nil_eq.symm
  constructor <;> simp [hstreams, hviewers, StreamKeysApart, ViewerKeysApart]

/-- **The seed is faithful exactly on the safe databases.** -/
theorem seed_faithful_iff (d : Database) : SeedFaithful d.db ↔ SeedSafe d.db := by
  obtain ⟨db, hok⟩ := d
  dsimp only
  constructor
  · intro h
    cases hseed : seedFromLocalDb db with
    | none => exact seedSafe_of_none hseed
    | some cmd =>
      obtain rfl := seedFromLocalDb_eq_some hseed
      refine seedSafe_of_faithful hok fun index => ?_
      obtain ⟨howner, hblank⟩ := h _ hseed index
      exact ⟨howner, hblank .empty ⟨rfl, rfl, rfl⟩⟩
  · intro h cmd hseed index
    obtain rfl := seedFromLocalDb_eq_some hseed
    have hpass := (seedPasses_iff hok).2 h.pendingViewers
    refine ⟨⟨(seedCommand_self_isError index).2 hpass, ?_⟩, fun blank hb =>
      seedCommand_blank hok h hb index⟩
    rw [seedCommand_self_db hpass]
    exact (sameTables_setPending hok).2 h.pendingDisabled

/-- A standalone server with a stream left mid-delete and an extra viewer with a legacy key. -/
def legacyDatabase : Database where
  db := { Db.empty with
    streams := [⟨legacyStream, true, "t"⟩]
    viewers := [legacyDefaultViewer, legacyExtraViewer]
    apiToken := some "tok" }
  schemaOk := by constructor <;> simp [Db.empty, UniqueOn] <;> decide

/-- Its seed fails on the bootstrapping node itself. -/
theorem legacy_seed_fails : ¬ SeedFaithful legacyDatabase.db := by
  intro h
  have herr : (applyNormal 2 legacyDatabase.db
      (seedCommand legacyDatabase.db)).response.isError = true := by decide
  rw [(h _ rfl 2).1.1] at herr
  cases herr

end RtmpServer
