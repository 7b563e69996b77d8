import RtmpServer.Cluster.Node

/-!
# Ownership fencing

A stream's owner row is written by `AcquireStreamOwner` under the index of its log entry, so the
index doubles as the fencing epoch. `ownership_fenced` is what this gives over any log from the
empty state. Epochs are stored `as i64` and compared as signed numbers there; log indexes stay below
`2^63`, so both orders agree on them (`le_clampToI64`).
-/

namespace RtmpServer

open List Lib.Table Lib.Replay

variable {log : RaftLog} {db : Db} {e : Entry} {cmd : ClusterCommand} {streamId : String}
  {acquiredAt : Int} {m : Nat} {i : Nat} {x : UInt64} {c : Change} {s : String} {k : Nat} {a : Int}

/-! ### Epochs as `i64` -/

theorem toInt_toInt64 (h : x.toNat < 2 ^ 63) : x.toInt64.toInt = x.toNat := by
  show x.toBitVec.toInt = _
  rw [BitVec.toInt_eq_toNat_of_lt]
  · rfl
  · show 2 * x.toNat < 2 ^ 64
    omega

/-- The stored bound of a node-wide release compares with a stored epoch as the `u64` bound does
with the epoch. -/
theorem le_clampToI64 {x m : UInt64} (hx : x.toNat < 2 ^ 63) :
    x.toInt64 ≤ Db.clampToI64 m ↔ x ≤ m := by
  unfold Db.clampToI64
  rw [Int64.le_iff_toInt_le, UInt64.le_iff_toNat_le, toInt_toInt64 hx]
  split_ifs with hm
  · rw [toInt_toInt64 hm]
    omega
  · have hmax : Int64.maxValue.toInt = 2 ^ 63 - 1 := by decide
    rw [hmax]
    omega

theorem max_one (h : 0 < x.toNat) : max x 1 = x := by
  have hle : ¬ x ≤ 1 ∨ x = 1 := by
    by_cases hx : x ≤ 1
    · right
      rw [UInt64.le_iff_toNat_le] at hx
      have h1 : (1 : UInt64).toNat = 1 := rfl
      rw [← UInt64.toNat_inj]
      omega
    · exact .inl hx
  rcases hle with hle | rfl
  · show (if x ≤ 1 then 1 else x) = x
    rw [if_neg hle]
  · rfl

/-! ### Grants -/

/-- The entry with index `m` acquired the stream for the node and was answered with `epoch`. -/
def RaftLog.Grants (log : RaftLog) (m : Nat) (streamId : String) (nodeId : UInt64)
    (acquiredAt : Int) (epoch : UInt64) : Prop :=
  ∃ k db e ep, m = k + 1 ∧ log.stateAt k = some db ∧ log.entries[k]? = some e ∧
    e.payload = .normal (.acquireStreamOwner streamId nodeId ep acquiredAt) ∧
    (applyEntry db e).response = .ownerEpoch epoch

section Grants

variable {log : RaftLog} {k : Nat} {streamId : String} {nodeId epoch : UInt64} {acquiredAt : Int}
  {e : Entry}

theorem RaftLog.Grants.payload (h : log.Grants (k + 1) streamId nodeId acquiredAt epoch)
    (he : log.entries[k]? = some e) :
    ∃ ep, e.payload = .normal (.acquireStreamOwner streamId nodeId ep acquiredAt) := by
  obtain ⟨k', -, e', ep, hk, -, he', hp, -⟩ := h
  obtain rfl : k = k' := by omega
  rw [he, Option.some.injEq] at he'
  subst he'
  exact ⟨ep, hp⟩

theorem RaftLog.Grants.response (h : log.Grants (k + 1) streamId nodeId acquiredAt epoch) {db : Db}
    (hs : log.stateAt k = some db) (he : log.entries[k]? = some e) :
    (applyEntry db e).response = .ownerEpoch epoch := by
  obtain ⟨k', db', e', -, hk, hs', he', -, hresp⟩ := h
  obtain rfl : k = k' := by omega
  rw [he, Option.some.injEq] at he'
  rw [hs, Option.some.injEq] at hs'
  subst he' hs'
  exact hresp

end Grants

theorem entry_index (he : log.entries[k]? = some e) :
    max e.logId.index 1 = e.logId.index ∧ e.logId.index.toNat = k + 1 ∧
      e.logId.index.toNat < 2 ^ 63 := by
  have hidx := log.index_of_getElem? he
  have hk := (List.getElem?_eq_some_iff.1 he).1
  have hlen := log.length_lt
  exact ⟨max_one (by omega), hidx, by omega⟩

theorem applyEntry_acquire (hok : SchemaOk db) {nodeId ep : UInt64}
    (hp : e.payload = .normal (.acquireStreamOwner streamId nodeId ep acquiredAt)) :
    Db.AcquireSpec db streamId nodeId (max e.logId.index 1) acquiredAt
        (db.streamOwnerAcquire streamId nodeId (max e.logId.index 1) acquiredAt) ∧
      applyEntry db e = acquireResponse db [.ownershipChanged]
        (db.streamOwnerAcquire streamId nodeId (max e.logId.index 1) acquiredAt) := by
  refine ⟨Db.streamOwnerAcquire_spec hok _ _ _ _, ?_⟩
  unfold applyEntry
  rw [hp]
  rfl

theorem RaftLog.Grants.epoch_eq {nodeId : UInt64} {epoch : UInt64}
    (h : log.Grants m streamId nodeId acquiredAt epoch) : epoch.toNat = m := by
  obtain ⟨k, db, e, ep, rfl, hs, he, hp, hresp⟩ := h
  obtain ⟨hspec, happ⟩ := applyEntry_acquire (RaftLog.stateAt_schemaOk hs) hp
  rw [happ] at hresp
  obtain ⟨hmax, hidx, -⟩ := entry_index he
  rw [hmax] at hspec hresp
  generalize db.streamOwnerAcquire streamId nodeId e.logId.index acquiredAt = res at hspec hresp
  cases hspec with
  | notFound _ => cases hresp
  | conflict _ o _ _ _ => cases hresp
  | granted _ _ owners _ =>
    cases hresp
    exact hidx

def Change.WritesOwner : Change → Prop
  | .insertOwner _ | .updateOwner _ _ _ => True
  | _ => False

theorem ClusterCommand.Makes.acquire {index : UInt64} (h : cmd.Makes index c) (hc : c.WritesOwner) :
    ∃ s n ep a, cmd = .acquireStreamOwner s n ep a := by
  cases cmd with
  | acquireStreamOwner s n ep a => exact ⟨s, n, ep, a, rfl⟩
  | createStream s v token => rcases h with rfl | rfl <;> cases hc
  | deleteViewer streamId viewerId => rcases h with rfl | rfl <;> cases hc
  | seedFromStandalone streams viewers tokens apiToken pending =>
    rcases h with ⟨_, _, rfl⟩ | ⟨_, _, rfl⟩ | ⟨_, _, rfl⟩ | ⟨_, _, rfl⟩ <;> cases hc
  | _ => cases h; cases hc

theorem Change.owners_run {db db' : Db} (hc : ¬ c.WritesOwner) (h : c.run db = some db') :
    ∀ o ∈ db'.owners, o ∈ db.owners := by
  intro o ho
  cases c with
  | insertStream s token =>
    obtain ⟨-, rfl⟩ := Db.insertStream_eq_some.1 h
    exact ho
  | insertViewer v =>
    obtain ⟨-, -, rfl⟩ := Db.insertViewer_eq_some.1 h
    exact ho
  | insertOwner o => exact absurd trivial hc
  | updateOwner s e a => exact absurd trivial hc
  | deleteStream id =>
    cases h
    unfold Db.streamDeleteIfPending at ho
    dsimp only at ho
    split_ifs at ho
    · exact mem_of_mem_deleteWhere ho
    · exact ho
  | deleteOwners p =>
    cases h
    exact mem_of_mem_deleteWhere ho
  | _ => cases h; exact ho

theorem applyNormal_owners (index : UInt64)
    (hcmd : ∀ s n ep a, cmd ≠ .acquireStreamOwner s n ep a) :
    ∀ o ∈ (applyNormal index db cmd).db.owners, o ∈ db.owners := by
  have hI : ∀ d c d', cmd.Makes index c → (∀ o ∈ d.owners, o ∈ db.owners) → c.run d = some d' →
      ∀ o ∈ d'.owners, o ∈ db.owners := by
    intro d c d' hc hd hrun o ho
    refine hd o (Change.owners_run (fun hw => ?_) hrun o ho)
    obtain ⟨s, n, ep, a, rfl⟩ := hc.acquire hw
    exact hcmd s n ep a rfl
  exact (applyNormal_reaches index db cmd).inv hI fun _ => id

theorem RaftLog.Grants.unique {s s' : String} {n n' : UInt64} {a a' : Int} {ep ep' : UInt64}
    (h : log.Grants m s n a ep) (h' : log.Grants m s' n' a' ep') : s = s' := by
  obtain ⟨k, _, e, _, rfl, -, he, hp, -⟩ := h
  obtain ⟨ep', hp'⟩ := h'.payload he
  rw [hp', EntryPayload.normal.injEq, ClusterCommand.acquireStreamOwner.injEq] at hp
  exact hp.1.symm

theorem RaftLog.Grants.le_length {n : UInt64} {ep : UInt64} (h : log.Grants m s n a ep) :
    m ≤ log.entries.length := by
  obtain ⟨k, _, e, _, rfl, -, he, -⟩ := h
  exact (List.getElem?_eq_some_iff.1 he).1

/-- An entry either grants one stream, writing that stream's row and no other, or grants nothing
and at most removes rows. -/
theorem applyEntry_owners (hs : log.stateAt k = some db) (he : log.entries[k]? = some e) :
    (∃ s n a, log.Grants (k + 1) s n a e.logId.index ∧
      ∀ r, r ∈ (applyEntry db e).db.owners ↔
        r = ⟨s, n.toInt64, e.logId.index.toInt64, a⟩ ∨ r ∈ db.owners ∧ r.streamId ≠ s) ∨
    (∀ s n a ep, ¬ log.Grants (k + 1) s n a ep) ∧
      ∀ r ∈ (applyEntry db e).db.owners, r ∈ db.owners := by
  by_cases hacq : ∃ s n ep a, e.payload = .normal (.acquireStreamOwner s n ep a)
  · obtain ⟨s, n, ep, a, hp⟩ := hacq
    obtain ⟨hspec, happ⟩ := applyEntry_acquire (RaftLog.stateAt_schemaOk hs) hp
    rw [(entry_index he).1] at hspec happ
    generalize db.streamOwnerAcquire s n e.logId.index a = res at hspec happ
    have hnone (hr : ∀ ep, (applyEntry db e).response ≠ .ownerEpoch ep) :
        ∀ s n a ep, ¬ log.Grants (k + 1) s n a ep := by
      intro s n a ep h
      exact hr ep (h.response hs he)
    cases hspec with
    | notFound _ =>
      refine .inr ⟨hnone fun ep => ?_, fun r hr => ?_⟩
      · rw [happ]
        nofun
      · rw [happ] at hr
        exact hr
    | conflict _ o _ _ _ =>
      refine .inr ⟨hnone fun ep => ?_, fun r hr => ?_⟩
      · rw [happ]
        nofun
      · rw [happ] at hr
        exact hr
    | granted _ _ owners hrows =>
      refine .inl ⟨s, n, a, ⟨k, db, e, ep, rfl, hs, he, hp, ?_⟩, fun r => ?_⟩
      · rw [happ]
        rfl
      · rw [happ]
        exact hrows r
  · refine .inr ⟨fun s n a ep h => ?_, ?_⟩
    · obtain ⟨ep₀, hp⟩ := h.payload he
      exact hacq ⟨s, n, ep₀, a, hp⟩
    · unfold applyEntry
      cases hp : e.payload with
      | blank => exact fun _ => id
      | membership m => exact fun _ => id
      | normal cmd =>
        refine applyNormal_owners _ fun s n ep a hcmd => hacq ⟨s, n, ep, a, ?_⟩
        rw [hp, hcmd]

/-! ### Rows and their grants -/

/-- The row was written by the last of the first `i` entries that acquired its stream, and its
epoch is that entry's index. -/
structure RaftLog.LastGrant (log : RaftLog) (i : Nat) (o : StreamOwner) : Prop where
  grant : log.Grants o.epoch.toNat o.streamId o.ownerNodeId o.acquiredAt o.epoch
  le : o.epoch.toNat ≤ i
  last : ∀ m n a ep, log.Grants m o.streamId n a ep → m ≤ i → m ≤ o.epoch.toNat

theorem RaftLog.LastGrant.succ {o : StreamOwner} (h : log.LastGrant i o)
    (hno : ∀ n a ep, ¬ log.Grants (i + 1) o.streamId n a ep) : log.LastGrant (i + 1) o := by
  refine ⟨h.grant, by have := h.le; omega, fun m n a ep hg hm => ?_⟩
  have hne : m ≠ i + 1 := by
    rintro rfl
    exact hno n a ep hg
  exact h.last m n a ep hg (by omega)

/-- **Every owner row stands for the last grant of its stream.** -/
theorem RaftLog.lastGrant (h : log.stateAt i = some db) :
    ∀ o ∈ db.owners, log.LastGrant i o.toOwner := by
  induction i generalizing db with
  | zero =>
    rw [RaftLog.stateAt, stateAt_zero, Option.some.injEq] at h
    subst h
    exact fun o ho => absurd ho not_mem_nil
  | succ k ih =>
    cases he : log.entries[k]? with
    | none =>
      rw [RaftLog.stateAt, stateAt_succ_of_none he] at h
      refine fun o ho => (ih h o ho).succ fun n a ep hg => ?_
      have hlen := hg.le_length
      rw [getElem?_eq_none_iff] at he
      omega
    | some e =>
      rw [RaftLog.stateAt, stateAt_succ he, Option.bind_eq_some_iff] at h
      obtain ⟨db₀, hs, hstep⟩ := h
      obtain ⟨-, rfl⟩ := step_eq_some.1 hstep
      intro o ho
      rcases applyEntry_owners hs he with ⟨s, n, a, hg, hrows⟩ | ⟨hno, hsub⟩
      · have hidx := log.index_of_getElem? he
        rcases (hrows o).1 ho with rfl | ⟨ho, hne⟩
        · have hrow : (⟨s, n.toInt64, e.logId.index.toInt64, a⟩ : OwnerRow).toOwner =
              ⟨s, n, e.logId.index, a⟩ := by simp [OwnerRow.toOwner]
          rw [hrow]
          refine ⟨?_, hidx.le, fun m _ _ _ _ hm => ?_⟩
          · rw [hidx]
            exact hg
          · rw [hidx]
            exact hm
        · exact (ih hs o ho).succ fun n' a' ep hg' => hne (hg'.unique hg)
      · exact (ih hs o (hsub o ho)).succ fun n a ep => hno _ n a ep

/-! ### Rows along the log -/

def RaftLog.HasOwner (log : RaftLog) (i : Nat) (o : StreamOwner) : Prop :=
  ∃ db, log.stateAt i = some db ∧ o ∈ db.streamOwnerList

namespace RaftLog.HasOwner

variable {log : RaftLog} {i : Nat} {o : StreamOwner}

theorem lastGrant (h : log.HasOwner i o) : log.LastGrant i o := by
  obtain ⟨db, hs, ho⟩ := h
  obtain ⟨row, hrow, rfl⟩ := mem_map.1 ho
  exact RaftLog.lastGrant hs row hrow

theorem of_succ (h : log.HasOwner (i + 1) o) (hne : o.epoch.toNat ≠ i + 1) : log.HasOwner i o := by
  obtain ⟨db', hs', ho⟩ := h
  obtain ⟨row, hrow, rfl⟩ := mem_map.1 ho
  cases he : log.entries[i]? with
  | none =>
    rw [RaftLog.stateAt, stateAt_succ_of_none he] at hs'
    exact ⟨db', hs', ho⟩
  | some e =>
    rw [RaftLog.stateAt, stateAt_succ he, Option.bind_eq_some_iff] at hs'
    obtain ⟨db, hs, hstep⟩ := hs'
    obtain ⟨-, rfl⟩ := step_eq_some.1 hstep
    refine ⟨db, hs, mem_map_of_mem ?_⟩
    rcases applyEntry_owners hs he with ⟨s, n, a, -, hrows⟩ | ⟨-, hsub⟩
    · rcases (hrows row).1 hrow with rfl | ⟨hrow, -⟩
      · refine absurd ?_ hne
        simpa [OwnerRow.toOwner] using log.index_of_getElem? he
      · exact hrow
    · exact hsub row hrow

theorem of_le {j : Nat} (h : log.HasOwner i o) (hj : o.epoch.toNat ≤ j) (hle : j ≤ i) :
    log.HasOwner j o := by
  induction i with
  | zero =>
    obtain rfl : j = 0 := by omega
    exact h
  | succ i ih =>
    rcases Nat.eq_or_lt_of_le hle with rfl | hlt
    · exact h
    · exact ih (h.of_succ (by omega)) (by omega)

end RaftLog.HasOwner

/-! ### Fencing -/

structure OwnershipFenced (log : RaftLog) : Prop where
  oneRow : ∀ i db, log.stateAt i = some db → UniqueOn (·.streamId) db.owners
  lastGrant : ∀ i db, log.stateAt i = some db → ∀ o ∈ db.owners, log.LastGrant i o.toOwner
  increasing : ∀ m m' s n n' a a' ep ep', log.Grants m s n a ep → log.Grants m' s n' a' ep' →
    m < m' → ep < ep'
  once : ∀ m m' s n n' a a' ep, log.Grants m s n a ep → log.Grants m' s n' a' ep → m = m'
  /-- While another node holds the row, an acquire is refused and changes nothing. -/
  exclusive : ∀ i db, log.stateAt i = some db → ∀ e s n ep a,
    e.payload = .normal (.acquireStreamOwner s n ep a) →
    ∀ o ∈ db.streamOwnerList, o.streamId = s → o.ownerNodeId ≠ n →
      applyEntry db e = ⟨db, if db.ownable s then .conflict else .notFound, []⟩
  /-- A release removes the row of its stream and epoch and no other. -/
  release : ∀ i db, log.stateAt i = some db → ∀ e s ep,
    e.payload = .normal (.releaseStreamOwner s ep) →
    (applyEntry db e).db.streamOwnerList =
      db.streamOwnerList.filter fun o => ¬ (o.streamId = s ∧ o.epoch = ep)
  /-- A node-wide release removes the node's rows up to the bound and no other. -/
  releaseNode : ∀ i db, log.stateAt i = some db → ∀ e n bound,
    e.payload = .normal (.releaseOwnersForNode n bound) →
    (applyEntry db e).db.streamOwnerList =
      db.streamOwnerList.filter fun o => ¬ (o.ownerNodeId = n ∧ o.epoch ≤ bound)

theorem toUInt64_eq_iff (x : Int64) (n : UInt64) : x.toUInt64 = n ↔ x = n.toInt64 :=
  not_iff_not.1 (Db.toUInt64_ne_iff x n)

theorem streamOwnerList_deleteOwners {p : OwnerRow → Bool} {q : StreamOwner → Bool}
    (h : ∀ o ∈ db.owners, q o.toOwner = !p o) :
    (db.deleteOwners p).streamOwnerList = db.streamOwnerList.filter q := by
  show ((db.owners.filter fun o => !p o).map OwnerRow.toOwner) =
    (db.owners.map OwnerRow.toOwner).filter q
  rw [filter_map]
  congr 1
  exact filter_congr fun o ho => (h o ho).symm

theorem applyEntry_releaseNode (h : log.stateAt i = some db) {n bound : UInt64}
    (hp : e.payload = .normal (.releaseOwnersForNode n bound)) :
    (applyEntry db e).db.streamOwnerList =
      db.streamOwnerList.filter fun o => ¬ (o.ownerNodeId = n ∧ o.epoch ≤ bound) := by
  have hdb : (applyEntry db e).db = (db.streamOwnersReleaseForNode n bound).1 := by
    unfold applyEntry
    rw [hp]
    rfl
  rw [hdb]
  refine streamOwnerList_deleteOwners fun o ho => ?_
  -- stored epochs are log indexes, on which the signed and the unsigned order agree
  have hlt : o.epoch.toUInt64.toNat < 2 ^ 63 :=
    (RaftLog.lastGrant h o ho).grant.le_length.trans_lt log.length_lt
  have hle := le_clampToI64 (m := bound) hlt
  rw [Int64.toInt64_toUInt64] at hle
  rw [← decide_not, decide_eq_decide]
  show ¬ (o.ownerNodeId.toUInt64 = n ∧ o.epoch.toUInt64 ≤ bound) ↔ _
  rw [toUInt64_eq_iff, hle]

theorem applyEntry_acquire_other (hok : SchemaOk db) {n ep : UInt64}
    (hp : e.payload = .normal (.acquireStreamOwner s n ep a)) {o : OwnerRow} (ho : o ∈ db.owners)
    (hs : o.streamId = s) (hn : o.ownerNodeId.toUInt64 ≠ n) :
    applyEntry db e = ⟨db, if db.ownable s then .conflict else .notFound, []⟩ := by
  obtain ⟨hspec, happ⟩ := applyEntry_acquire hok hp
  rw [happ]
  generalize db.streamOwnerAcquire s n (max e.logId.index 1) a = res at hspec
  cases hspec with
  | notFound h =>
    rw [h]
    rfl
  | conflict h _ _ _ _ =>
    rw [h]
    rfl
  | granted _ hfree _ _ =>
    exact absurd (hfree o ho hs) ((Db.toUInt64_ne_iff _ _).1 hn)

/-- **Ownership is fenced over every log.** -/
theorem ownership_fenced (log : RaftLog) : OwnershipFenced log where
  oneRow := fun i db h => (RaftLog.stateAt_schemaOk h).ownerStream
  lastGrant := fun i db h => RaftLog.lastGrant h
  increasing := by
    intro m m' s n n' a a' ep ep' hg hg' hlt
    rw [UInt64.lt_iff_toNat_lt, hg.epoch_eq, hg'.epoch_eq]
    exact hlt
  once := by
    intro m m' s n n' a a' ep hg hg'
    rw [← hg.epoch_eq, hg'.epoch_eq]
  exclusive := by
    intro i db h e s n ep a hp o ho hs hn
    obtain ⟨r, hr, rfl⟩ := mem_map.1 ho
    exact applyEntry_acquire_other (RaftLog.stateAt_schemaOk h) hp hr hs hn
  release := by
    intro i db h e s ep hp
    have hdb : (applyEntry db e).db = (db.streamOwnerRelease s ep).1 := by
      unfold applyEntry
      rw [hp]
      rfl
    rw [hdb]
    refine streamOwnerList_deleteOwners fun o _ => ?_
    rw [← decide_not, decide_eq_decide]
    show ¬ (o.streamId = s ∧ o.epoch.toUInt64 = ep) ↔ _
    rw [toUInt64_eq_iff]
  releaseNode := fun i db h e n bound hp => applyEntry_releaseNode h hp

end RtmpServer
