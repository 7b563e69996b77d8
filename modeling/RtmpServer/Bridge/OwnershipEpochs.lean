import RtmpServer.Bridge.Operations

/-!
# Epochs of stream ownership

A node that publishes a stream in a cluster owns it under an epoch that the cluster granted. The
bridge records the epoch for the publishing connection, and an epoch it no longer records has to be
released, or the stream stays blocked for the other nodes. Several operations write the record under
a lock, with calls of the coordinator in between that are made without it.
-/

namespace RtmpServer

open Option List Lib.Program Lib.Replay Set AList

variable {s : Bridge}

namespace Bridge

/-- Granted epochs that this node still owns and has forgotten: none newer was granted for the
stream, and the epoch is neither released nor recorded. -/
def forgottenEpochs (s : Bridge) : Set (String × UInt64) :=
  {g | s.coordinator = .cluster ∧ s.newestEpoch g.1 = some g.2 ∧ g ∉ s.released ∧
    ∀ conn, s.ownershipEpochs.lookup conn ≠ some g}

def claims (s : Bridge) := (s.coordinator, s.ownershipEpochs, s.granted, s.released)

def entryIs (s : Bridge) (conn : UInt64) (entry : Option (String × UInt64)) : Bool :=
  (s.ownershipEpochs.lookup conn).isNone || s.ownershipEpochs.lookup conn = entry

end Bridge

/-- The condition on a step:

* an epoch is recorded or stamped while it is the newest that was granted for its stream;
* an authorization records its epoch over the entry it found when it began, or over one of the same
  stream;
* when the answer to a release arrives, the entry is still the one the release was sent for;
* the release of an epoch that was never recorded does not fail, nor does the release of an entry
  that is then removed. -/
def ownershipOk (s : Bridge) : Action → Outcome → Bool
  | .recordOwnership conn streamId epoch prior, _ =>
    s.coordinator ≠ .cluster || (s.newestEpoch streamId = some epoch &&
      (s.entryIs conn prior || (s.ownershipEpochs.lookup conn).any fun e => e.1 = streamId))
  | .retagStreamEpoch streamId epoch, _ =>
    s.coordinator ≠ .cluster || s.newestEpoch streamId = some epoch
  | .forgetOwnership conn streamId epoch _, _ => s.entryIs conn (some (streamId, epoch))
  | .releaseStreamOwner cause _ _, w => (cause ≠ .undo && cause ≠ .release) || !w.fails
  | _, _ => true

/-- An entry is taken from a connection only once its epoch was released; until then the connection
records that epoch, or the newest that was granted for the stream. -/
def KeepsEntries (s s' : Bridge) : Prop :=
  s.coordinator = .cluster → ∀ conn g, s.ownershipEpochs.lookup conn = some g →
    g ∈ s'.released ∨ ∃ e, s'.ownershipEpochs.lookup conn = some (g.1, e) ∧
      (e = g.2 ∨ s'.newestEpoch g.1 = some e)

namespace Action

def touchesOwnership : Action → Bool
  | .acquireStreamOwner _ => true
  | .releaseStreamOwner _ _ _ => true
  | .admitPublisher _ _ => true
  | .recordOwnership _ _ _ _ => true
  | .forgetOwnership _ _ _ _ => true
  | .forgetFastOwnership _ _ => true
  | .retagStreamEpoch _ _ => true
  | _ => false

end Action

section Claims

variable {s s' : Bridge}

theorem forgottenEpochs_congr (h : s'.claims = s.claims) :
    s'.forgottenEpochs = s.forgottenEpochs := by
  simp only [Bridge.claims, Prod.mk.injEq] at h
  obtain ⟨hc, he, hg, hr⟩ := h
  simp only [Bridge.forgottenEpochs, Bridge.newestEpoch, hc, he, hg, hr]

theorem keepsEntries_of_eq (h : s'.ownershipEpochs = s.ownershipEpochs) : KeepsEntries s s' :=
  fun _ _ g hg => .inr ⟨g.2, h ▸ hg, .inl rfl⟩

theorem claims_modifyConn (s : Bridge) (conn : UInt64) (f : ConnState → ConnState) :
    (s.modifyConn conn f).claims = s.claims := by
  unfold Bridge.modifyConn
  cases s.conns.lookup conn <;> rfl

theorem claims_admitPlayer (s : Bridge) (conn : UInt64) (row : PlayerRecord) :
    (s.admitPlayer conn row).1.claims = s.claims := by
  unfold Bridge.admitPlayer
  by_cases hdeleted : row.streamId ∈ s.deletedStreams
  · rw [if_pos hdeleted]
  · rw [if_neg hdeleted]
    by_cases hplayer : (s.playerOf conn).isSome
    · rw [if_pos hplayer]
    · rw [if_neg hplayer]
      cases s.db.playerReserve row.viewerId <;> rfl

theorem claims_queuePersist (s : Bridge) (job : PersistJob) (fails : Bool) :
    (s.queuePersist job fails).1.claims = s.claims := by
  cases fails <;> rfl

theorem claims_exec (a : Action) (w : Outcome) (s : Bridge) (h : a.touchesOwnership = false) :
    (a.exec w s).1.claims = s.claims := by
  cases a with
  | clearPublisher conn id => exact claims_modifyConn s conn _
  | clearPlayer conn id => exact claims_modifyConn s conn _
  | dropPlayer conn id => exact claims_modifyConn s conn _
  | admitPlayer conn row => exact claims_admitPlayer s conn row
  | queuePersist job => exact claims_queuePersist s job w.fails
  | _ => first | rfl | cases h

/-! ### The books of the coordinator -/

/-- The coordinator stays the same, and what was released stays released. -/
def SameBooks (s s' : Bridge) : Prop :=
  s'.coordinator = s.coordinator ∧ s.released ⊆ s'.released

theorem sameBooks_of_claims (h : s'.claims = s.claims) : SameBooks s s' := by
  simp only [Bridge.claims, Prod.mk.injEq] at h
  obtain ⟨hc, -, -, hr⟩ := h
  exact ⟨hc, hr ▸ List.Subset.refl _⟩

theorem sameBooks_acquire (s : Bridge) (streamId : String) (epoch : Option UInt64) :
    SameBooks s (s.acquireStreamOwner streamId epoch).1 := by
  unfold Bridge.acquireStreamOwner
  by_cases hc : s.coordinator = .cluster
  · rw [if_pos hc]
    cases epoch.filter fun e => (streamId, e) ∉ s.granted with
    | none => exact ⟨rfl, List.Subset.refl _⟩
    | some e => exact ⟨rfl, List.Subset.refl _⟩
  · rw [if_neg hc]
    exact ⟨rfl, List.Subset.refl _⟩

theorem sameBooks_release (s : Bridge) (streamId : String) (epoch : UInt64) (w : Outcome) :
    SameBooks s (s.releaseStreamOwner streamId epoch w).1 := by
  unfold Bridge.releaseStreamOwner
  by_cases hc : s.coordinator = .cluster
  · rw [if_pos hc]
    cases w.fails && !w.applied with
    | true => exact ⟨rfl, List.Subset.refl _⟩
    | false => exact ⟨rfl, subset_cons_self _ _⟩
  · rw [if_neg hc]
    exact ⟨rfl, List.Subset.refl _⟩

theorem sameBooks_admitPublisher (s : Bridge) (conn : UInt64) (row : PublisherRecord) :
    SameBooks s (s.admitPublisher conn row).1 := by
  unfold Bridge.admitPublisher
  by_cases hdeleted : row.streamId ∈ s.deletedStreams
  · rw [if_pos hdeleted]
    exact ⟨rfl, List.Subset.refl _⟩
  · rw [if_neg hdeleted]
    simp only
    split
    · exact ⟨rfl, List.Subset.refl _⟩
    · split
      · exact ⟨rfl, List.Subset.refl _⟩
      · exact ⟨rfl, List.Subset.refl _⟩

theorem sameBooks_exec (a : Action) (w : Outcome) (s : Bridge) : SameBooks s (a.exec w s).1 := by
  cases ha : a.touchesOwnership with
  | false => exact sameBooks_of_claims (claims_exec a w s ha)
  | true =>
    cases a with
    | acquireStreamOwner streamId => exact sameBooks_acquire s streamId w.epoch
    | releaseStreamOwner cause streamId epoch => exact sameBooks_release s streamId epoch w
    | admitPublisher conn row => exact sameBooks_admitPublisher s conn row
    | forgetFastOwnership conn streamId =>
      show SameBooks s (s.forgetFastOwnership conn streamId)
      unfold Bridge.forgetFastOwnership
      split <;> exact ⟨rfl, List.Subset.refl _⟩
    | recordOwnership conn streamId epoch prior => exact ⟨rfl, List.Subset.refl _⟩
    | forgetOwnership conn streamId epoch released => exact ⟨rfl, List.Subset.refl _⟩
    | retagStreamEpoch streamId epoch => exact ⟨rfl, List.Subset.refl _⟩
    | _ => cases ha

end Claims

/-- The epochs a node has forgotten are what its operations must not leave. They may know which
epochs were released. -/
def ownershipContract :
    Contract Bridge Action Action.Answer Outcome (String × UInt64) (String × UInt64) where
  exec := Action.exec
  ok := ownershipOk
  facts s := {g | s.coordinator = .cluster → g ∈ s.released}
  facts_mono s a w := by
    intro g hg hc
    obtain ⟨hcoord, hreleased⟩ := sameBooks_exec a w s
    exact hreleased (hg (hcoord ▸ hc))
  guar s _ s' := KeepsEntries s s'
  debts := Bridge.forgottenEpochs

/-! ### The actions on ownership -/

section Actions

variable {α : Type} {W K : Set (String × UInt64)}
variable {Q : α → Set (String × UInt64) → Set (String × UInt64) → Prop}
variable {streamId : String} {next : Unit → BridgeM α} {epoch : UInt64} {conn : UInt64} {s : Bridge}
  {d : String × UInt64} {a : Action}

theorem settles_other (ha : a.touchesOwnership = false) {next : a.Answer → BridgeM α}
    (h : ∀ r, ownershipContract.Settles (next r) W K Q) :
    ownershipContract.Settles (.act a next) W K Q := by
  refine Contract.Settles.neutral (fun s w _ => ?_) h
  have hclaims := claims_exec a w s ha
  refine ⟨keepsEntries_of_eq ?_, (forgottenEpochs_congr hclaims).subset⟩
  simp only [Bridge.claims, Prod.mk.injEq] at hclaims
  exact hclaims.2.1

theorem honours_other (ha : a.touchesOwnership = false) {next : a.Answer → BridgeM α}
    (h : ∀ r, ownershipContract.Honours (next r)) : ownershipContract.Honours (.act a next) :=
  fun _ => settles_other ha fun r => h r _

theorem settles_act {next : a.Answer → BridgeM α}
    (h : ∀ s w, K ⊆ ownershipContract.facts s → ownershipOk s a w →
      KeepsEntries s (a.exec w s).1 ∧
        ∃ W', (a.exec w s).1.forgottenEpochs ⊆ (s.forgottenEpochs \ W) ∪ W' ∧
          ownershipContract.Settles (next (a.exec w s).2) W' K Q) :
    ownershipContract.Settles (.act a next) W K Q := by
  intro s w hK hok
  obtain ⟨hkeeps, W', hdebts, hnext⟩ := h s w hK hok
  exact ⟨hkeeps, W', K, hK.trans (ownershipContract.facts_mono s a w), hdebts, hnext⟩

theorem mem_split {W' : Set (String × UInt64)} (hd : d ∈ s.forgottenEpochs) (hW : d ∈ W → d ∈ W') :
    d ∈ (s.forgottenEpochs \ W) ∪ W' := by
  by_cases hdW : d ∈ W
  · exact .inr (hW hdW)
  · exact .inl ⟨hd, hdW⟩

theorem newestEpoch_cons (s : Bridge) (streamId : String) (epoch : UInt64) (x : String) :
    Bridge.newestEpoch { s with granted := (streamId, epoch) :: s.granted } x =
      if streamId = x then some epoch else s.newestEpoch x := by
  unfold Bridge.newestEpoch
  by_cases hx : streamId = x
  · simp [hx]
  · simp [hx]

theorem settles_acquire {next : Option UInt64 → BridgeM α}
    (hnone : ownershipContract.Settles (next none) W K Q)
    (hsome : ∀ e, ownershipContract.Settles (next (some e)) (insert (streamId, e) W) K Q) :
    ownershipContract.Settles (.act (.acquireStreamOwner streamId) next) W K Q := by
  refine settles_act fun s w _ _ => ?_
  show KeepsEntries s (s.acquireStreamOwner streamId w.epoch).1 ∧
    ∃ W', (s.acquireStreamOwner streamId w.epoch).1.forgottenEpochs ⊆ _ ∪ W' ∧
      ownershipContract.Settles (next (s.acquireStreamOwner streamId w.epoch).2) W' K Q
  unfold Bridge.acquireStreamOwner
  by_cases hc : s.coordinator = .cluster
  · rw [if_pos hc]
    cases w.epoch.filter fun e => (streamId, e) ∉ s.granted with
    | none =>
      exact ⟨keepsEntries_of_eq rfl, W, fun d hd => mem_split hd id, hnone⟩
    | some e =>
      refine ⟨keepsEntries_of_eq rfl, insert (streamId, e) W, fun d hd => ?_, hsome e⟩
      obtain ⟨-, hnewest, hrest⟩ := hd
      rw [newestEpoch_cons] at hnewest
      by_cases hstream : streamId = d.1
      · rw [if_pos hstream, some.injEq] at hnewest
        exact .inr (.inl (Prod.ext hstream.symm hnewest.symm))
      · rw [if_neg hstream] at hnewest
        exact mem_split ⟨hc, hnewest, hrest⟩ fun hdW => .inr hdW
  · rw [if_neg hc]
    exact ⟨keepsEntries_of_eq rfl, insert (streamId, 1) W, fun d hd => absurd hd.1 hc, hsome 1⟩

theorem settles_release {cause : Cause} {next : Bool → BridgeM α}
    (hdone : ownershipContract.Settles (next true) (W \ {(streamId, epoch)})
      (insert (streamId, epoch) K) Q)
    (hfailed : cause ≠ .undo → cause ≠ .release → ownershipContract.Settles (next false) W K Q) :
    ownershipContract.Settles (.act (.releaseStreamOwner cause streamId epoch) next) W K Q := by
  intro s w hK hok
  have hmono := hK.trans (ownershipContract.facts_mono s (.releaseStreamOwner cause streamId epoch) w)
  revert hmono
  show _ ⊆ ownershipContract.facts (s.releaseStreamOwner streamId epoch w).1 →
    KeepsEntries s (s.releaseStreamOwner streamId epoch w).1 ∧
      ∃ W' K', K' ⊆ ownershipContract.facts (s.releaseStreamOwner streamId epoch w).1 ∧
        (s.releaseStreamOwner streamId epoch w).1.forgottenEpochs ⊆ _ ∪ W' ∧
          ownershipContract.Settles (next (s.releaseStreamOwner streamId epoch w).2) W' K' Q
  unfold Bridge.releaseStreamOwner
  intro hmono
  by_cases hc : s.coordinator = .cluster
  · rw [if_pos hc] at hmono ⊢
    cases hfails : w.fails with
    | false =>
      rw [hfails] at hmono
      refine ⟨keepsEntries_of_eq rfl, W \ {(streamId, epoch)}, insert (streamId, epoch) K, ?_, ?_, hdone⟩
      · exact insert_subset (fun _ => mem_cons_self) hmono
      · rintro d ⟨-, hnewest, hreleased, hrest⟩
        have hne : d ≠ (streamId, epoch) := fun h => hreleased (h ▸ mem_cons_self)
        refine mem_split ⟨hc, hnewest, fun h => hreleased (mem_cons_of_mem _ h), hrest⟩ ?_
        exact fun hdW => ⟨hdW, hne⟩
    | true =>
      rw [hfails] at hmono
      have hcause : cause ≠ .undo ∧ cause ≠ .release := by
        simpa [ownershipContract, ownershipOk, hfails] using hok
      refine ⟨?_, W, K, hmono, ?_, hfailed hcause.1 hcause.2⟩
      · refine keepsEntries_of_eq ?_
        cases w.applied <;> rfl
      · intro d hd
        cases happlied : w.applied with
        | false =>
          rw [happlied] at hd
          exact mem_split hd id
        | true =>
          rw [happlied] at hd
          obtain ⟨-, hnewest, hreleased, hrest⟩ := hd
          exact mem_split ⟨hc, hnewest, fun h => hreleased (mem_cons_of_mem _ h), hrest⟩ id
  · rw [if_neg hc] at hmono ⊢
    refine ⟨keepsEntries_of_eq rfl, W \ {(streamId, epoch)}, insert (streamId, epoch) K, ?_, ?_, hdone⟩
    · exact insert_subset (fun h => absurd h hc) hmono
    · exact fun d hd => absurd hd.1 hc

theorem entryIs_iff {entry : Option (String × UInt64)} :
    s.entryIs conn entry ↔
      s.ownershipEpochs.lookup conn = none ∨ s.ownershipEpochs.lookup conn = entry := by
  simp [Bridge.entryIs]

theorem forgotten_erase
    (hd : d ∈ Bridge.forgottenEpochs { s with ownershipEpochs := s.ownershipEpochs.erase conn }) :
    d ∈ s.forgottenEpochs ∨ s.ownershipEpochs.lookup conn = some d := by
  obtain ⟨hc, hnewest, hreleased, hentries⟩ := hd
  by_cases hconn : s.ownershipEpochs.lookup conn = some d
  · exact .inr hconn
  · refine .inl ⟨hc, hnewest, hreleased, fun conn' => ?_⟩
    by_cases hne : conn' = conn
    · exact hne ▸ hconn
    · rw [← lookup_erase_ne hne]
      exact hentries conn'

theorem settles_forget (hK : (streamId, epoch) ∈ K)
    (h : ownershipContract.Settles (next ()) W K Q) :
    ownershipContract.Settles (.act (.forgetOwnership conn streamId epoch true) next) W K Q := by
  refine settles_act fun s w hfacts hok => ?_
  have hentry := entryIs_iff.1 hok
  have hreleased : s.coordinator = .cluster → (streamId, epoch) ∈ s.released := hfacts hK
  refine ⟨?_, W, fun d hd => ?_, h⟩
  · intro hc conn' g hg
    by_cases hconn : conn' = conn
    · subst hconn
      rw [hg] at hentry
      obtain rfl : g = (streamId, epoch) := by simpa using hentry
      exact .inl (hreleased hc)
    · exact .inr ⟨g.2, (lookup_erase_ne hconn).trans hg, .inl rfl⟩
  · rcases forgotten_erase hd with hold | hconn
    · exact mem_split hold id
    · rw [hconn] at hentry
      obtain rfl : d = (streamId, epoch) := by simpa using hentry
      exact absurd (hreleased hd.1) hd.2.2.1

theorem settles_record {prior : Option (String × UInt64)}
    (hprior : ∀ g, prior = some g → g.1 ≠ streamId → g ∈ K)
    (h : ownershipContract.Settles (next ()) (W \ {(streamId, epoch)}) K Q) :
    ownershipContract.Settles (.act (.recordOwnership conn streamId epoch prior) next) W K Q := by
  refine settles_act fun s w hfacts hok => ?_
  -- what becomes of the entry that is overwritten
  have hover : s.coordinator = .cluster → ∀ g, s.ownershipEpochs.lookup conn = some g →
      s.newestEpoch streamId = some epoch ∧ (g.1 = streamId ∨ g ∈ s.released) := by
    intro hc g hg
    simp only [ownershipOk, hc, ne_eq, not_true_eq_false, decide_false, Bool.false_or,
      Bool.and_eq_true, decide_eq_true_eq, Bool.or_eq_true, entryIs_iff, hg, any_some,
      reduceCtorEq, false_or] at hok
    refine ⟨hok.1, or_iff_not_imp_left.2 fun hstream => ?_⟩
    exact hfacts (hprior g (hok.2.resolve_right hstream).symm hstream) hc
  refine ⟨?_, W \ {(streamId, epoch)}, fun d hd => ?_, h⟩
  · intro hc conn' g hg
    by_cases hconn : conn' = conn
    · subst hconn
      obtain ⟨hnewest, hstream | hreleased⟩ := hover hc g hg
      · exact .inr ⟨epoch, by rw [hstream]; exact lookup_insert _, .inr (hstream ▸ hnewest)⟩
      · exact .inl hreleased
    · exact .inr ⟨g.2, (lookup_insert_ne hconn).trans hg, .inl rfl⟩
  · obtain ⟨hc, hnewest, hreleased, hentries⟩ := hd
    have hne : d ≠ (streamId, epoch) := by
      rintro rfl
      exact hentries conn (lookup_insert _)
    refine mem_split ⟨hc, hnewest, hreleased, fun conn' hconn' => ?_⟩ fun hdW => ⟨hdW, hne⟩
    by_cases hconn : conn' = conn
    · subst hconn
      obtain ⟨hepoch, hstream | hrel⟩ := hover hc d hconn'
      · exact hne (Prod.ext hstream (some.inj (hnewest.symm.trans (hstream ▸ hepoch))))
      · exact hreleased hrel
    · exact hentries conn' ((lookup_insert_ne hconn).trans hconn')

theorem lookup_retag (s : Bridge) (streamId : String) (epoch : UInt64) (conn : UInt64) :
    (s.retagStreamEpoch streamId epoch).1.ownershipEpochs.lookup conn =
      (s.ownershipEpochs.lookup conn).map fun e => if e.1 = streamId then (e.1, epoch) else e :=
  lookup_mapValues _ _ _

theorem lookup_retag_newest {g : String × UInt64} (hnewest : s.newestEpoch streamId = some epoch)
    (hcurrent : s.newestEpoch g.1 = some g.2) (hg : s.ownershipEpochs.lookup conn = some g) :
    (s.retagStreamEpoch streamId epoch).1.ownershipEpochs.lookup conn = some g := by
  rw [lookup_retag, hg, map_some]
  by_cases hstream : g.1 = streamId
  · rw [hstream, hnewest, some.injEq] at hcurrent
    rw [if_pos hstream, hcurrent]
  · rw [if_neg hstream]

theorem settles_retag {next : Bool → BridgeM α}
    (hstamped : ownershipContract.Settles (next true) (W \ {(streamId, epoch)}) K Q)
    (hnone : ownershipContract.Settles (next false) W K Q) :
    ownershipContract.Settles (.act (.retagStreamEpoch streamId epoch) next) W K Q := by
  refine settles_act fun s w _ hok => ?_
  have hnewest : s.coordinator = .cluster → s.newestEpoch streamId = some epoch := by
    intro hc
    simpa [ownershipOk, hc] using hok
  have hdebts : ∀ d ∈ (s.retagStreamEpoch streamId epoch).1.forgottenEpochs,
      d ∈ s.forgottenEpochs := by
    rintro d ⟨hc, hcurrent, hreleased, hentries⟩
    refine ⟨hc, hcurrent, hreleased, fun conn hconn => hentries conn ?_⟩
    exact lookup_retag_newest (hnewest hc) hcurrent hconn
  refine ⟨?_, ?_⟩
  · intro hc conn g hg
    right
    show ∃ e, (s.retagStreamEpoch streamId epoch).1.ownershipEpochs.lookup conn = some (g.1, e) ∧ _
    rw [lookup_retag, hg, map_some]
    split_ifs with hstream
    · exact ⟨epoch, rfl, .inr (hstream ▸ hnewest hc)⟩
    · exact ⟨g.2, rfl, .inl rfl⟩
  show ∃ W', (s.retagStreamEpoch streamId epoch).1.forgottenEpochs ⊆ _ ∪ W' ∧
    ownershipContract.Settles (next (s.retagStreamEpoch streamId epoch).2) W' K Q
  cases hany : (s.retagStreamEpoch streamId epoch).2 with
  | false => exact ⟨W, fun d hd => mem_split (hdebts d hd) id, hnone⟩
  | true =>
    refine ⟨W \ {(streamId, epoch)}, fun d hd => mem_split (hdebts d hd) fun hdW => ⟨hdW, ?_⟩,
      hstamped⟩
    obtain ⟨e, he, hstream⟩ := any_eq_true.1 hany
    have hstream : e.2.1 = streamId := by simpa using hstream
    have hlookup : s.ownershipEpochs.lookup e.1 = some e.2 := mem_lookup_iff.2 he
    rintro rfl
    refine hd.2.2.2 e.1 ?_
    rw [lookup_retag, hlookup, map_some, if_pos hstream, hstream]

end Actions

/-! ### The operations -/

section Operations

open Contract Bridge

variable {conn : UInt64}

theorem honours_look {α : Type} {q : Query} {next : q.Answer → BridgeM α}
    (h : ∀ r, ownershipContract.Honours (next r)) :
    ownershipContract.Honours (look q >>= next) :=
  honours_other rfl h

theorem honours_perform {a : Action} (ha : a.touchesOwnership = false) :
    ownershipContract.Honours (perform a) :=
  honours_other ha fun _ => .ret _

theorem honours_tryRelease : ownershipContract.Honours (tryReleaseOwnershipForConn conn) := by
  refine honours_look fun entry => honours_look fun coordinator => ?_
  rcases entry with _ | ⟨streamId, epoch⟩
  · exact .ret _
  · by_cases hc : coordinator = .absent
    · simp only [hc, if_true]
      exact .ret _
    · simp only [hc, if_false]
      intro K
      refine settles_release ?_ fun _ hcause => absurd rfl hcause
      refine settles_forget (mem_insert _ _) ?_
      show _ \ _ = _
      simp

theorem honours_releaseOwnershipOf (streamId : String) :
    ownershipContract.Honours (releaseOwnershipOf conn streamId) := by
  refine honours_look fun entry => ?_
  split
  · exact honours_tryRelease
  · exact .ret _

theorem honours_releasePublisher : ownershipContract.Honours (releasePublisher conn) := by
  refine honours_look fun publisher => ?_
  cases publisher with
  | none => exact .ret _
  | some row =>
    refine (honours_perform rfl).bind fun updated => ?_
    split
    · exact (honours_releaseOwnershipOf _).bind fun _ => honours_perform rfl
    · exact .ret _

theorem honours_releasePublisherIfId (id : String) :
    ownershipContract.Honours (releasePublisherIfId conn id) := by
  refine honours_look fun publisher => ?_
  split
  · exact .ret _
  · refine (honours_perform rfl).bind fun updated => ?_
    split
    · refine honours_look fun current => ?_
      split
      · exact (honours_releaseOwnershipOf _).bind fun _ => honours_perform rfl
      · exact .ret _
    · exact .ret _

theorem honours_closePublisher (publisher : Option PublisherRecord) :
    ownershipContract.Honours (closePublisher publisher) := by
  cases publisher with
  | none => exact .ret _
  | some row =>
    refine (honours_perform rfl).bind fun updated => ?_
    split
    · exact .ret _
    · exact honours_perform rfl

theorem honours_closePlayer (player : Option PlayerRecord) :
    ownershipContract.Honours (closePlayer player) := by
  cases player with
  | none => exact .ret _
  | some row =>
    refine (honours_perform rfl).bind fun updated => ?_
    split
    · exact .ret _
    · exact honours_perform rfl

theorem honours_onClose : ownershipContract.Honours (onClose conn) := by
  refine (honours_perform rfl).bind fun _ => (honours_perform rfl).bind fun removed => ?_
  rcases removed with _ | cs
  · exact .ret _
  · refine (honours_closePublisher _).bind fun _ => ?_
    exact honours_tryRelease.bind fun _ => honours_closePlayer _

theorem honours_abandon (streamId : String) :
    ownershipContract.Honours (abandonRolesForStream streamId) := by
  refine (honours_perform rfl).bind fun dropped => ?_
  refine (Honours.forM (fun _ => honours_tryRelease) _).bind fun _ => ?_
  split
  · exact .ret _
  · exact honours_perform rfl

theorem honours_retryReleases : ownershipContract.Honours retryPendingOwnershipReleases := by
  refine (honours_perform rfl).bind fun epochs => honours_look fun coordinator => ?_
  split
  · exact honours_perform rfl
  · refine Honours.forM (fun e K => settles_release ?_ fun _ _ => honours_perform rfl K) _
    show _ \ _ = _
    simp

theorem honours_reacquire (streamId : String) :
    ownershipContract.Honours (reacquireStream streamId) := by
  intro K
  refine settles_acquire rfl fun epoch => settles_retag ?_ ?_
  · show _ \ _ = _
    simp
  · refine settles_release ?_ fun hcause => absurd rfl hcause
    show _ \ _ = _
    simp

/-! #### Authorization -/

theorem honours_restorePublisherRow (old : PublisherRecord) :
    ownershipContract.Honours (restorePublisherRow old) := by
  refine (honours_perform rfl).bind fun restored => ?_
  split
  · exact .ret _
  · exact honours_perform rfl

theorem honours_refusePublish (old : Option PublisherRecord) (kind : AuthFailureKind) :
    ownershipContract.Honours (refusePublish old kind) := by
  cases old with
  | none => exact .ret _
  | some prior => exact (honours_restorePublisherRow prior).bind fun _ => .ret _

theorem honours_undoPublish (row : PublisherRecord) (old : Option PublisherRecord)
    (kind : AuthFailureKind) : ownershipContract.Honours (undoPublish row old kind) :=
  (honours_perform rfl).bind fun _ => honours_refusePublish old kind

theorem settles_recordAndInstall {row : PublisherRecord} {epoch : UInt64}
    {prior : Option (String × UInt64)} {W K : Set (String × UInt64)}
    (hprior : ∀ g, prior = some g → g.1 ≠ row.streamId → g ∈ K) (hW : W ⊆ {(row.streamId, epoch)}) :
    ownershipContract.Settles (do
        perform (.recordOwnership conn row.streamId epoch prior)
        perform (.installPublisher conn row)
        pure (Except.ok () : Except AuthFailureKind Unit)) W K fun _ W _ => W = ∅ := by
  refine settles_record hprior (settles_other rfl fun _ => ?_)
  exact eq_empty_of_forall_notMem fun g hg => hg.2 (hW hg.1)

theorem honours_claimStream (row : PublisherRecord) (old : Option PublisherRecord)
    (prior : Option (String × UInt64)) :
    ownershipContract.Honours (claimStream conn row old prior) := by
  refine honours_look fun coordinator => ?_
  split
  · exact (honours_perform rfl).bind fun _ => .ret _
  · intro K
    refine settles_acquire (honours_undoPublish row old _ K) fun epoch => ?_
    rw [insert_empty_eq]
    simp only [releasePrior]
    cases hfilter : prior.filter fun e => e.1 ≠ row.streamId with
    | none =>
      refine settles_recordAndInstall (fun g hg hne => ?_) Set.Subset.rfl
      simp [hg, hne] at hfilter
    | some e =>
      obtain ⟨hprior, -⟩ := filter_eq_some_iff.1 hfilter
      refine settles_release ?_ fun _ _ => settles_release ?_ fun hcause => absurd rfl hcause
      · refine settles_recordAndInstall (fun g hg _ => ?_) sdiff_subset
        rw [hprior] at hg
        exact .inl (some.inj hg).symm
      · rw [sdiff_self]
        exact honours_undoPublish row old _ _

theorem honours_switchPublisher (row : PublisherRecord) :
    ownershipContract.Honours (switchPublisher conn row) := by
  refine honours_look fun old => honours_look fun prior => ?_
  refine Honours.bind ?_ fun gone => ?_
  · cases old with
    | none => exact .ret _
    | some row => exact honours_perform rfl
  · split
    · refine (honours_perform rfl).bind fun acquired => ?_
      split
      · exact honours_claimStream row old prior
      · exact honours_refusePublish old _
    · exact .ret _

theorem honours_authorizePublish (app streamKey : String) :
    ownershipContract.Honours (authorizePublish conn app streamKey) := by
  refine Honours.leads (fun a ha s w _ => ?_) ?_ (authorizePublish_leads app streamKey)
  · cases a with
    | look q => exact ⟨keepsEntries_of_eq rfl, Set.Subset.rfl⟩
    | _ => cases ha
  · rintro _ (rfl | ⟨row, rfl⟩)
    · exact .ret _
    · exact (honours_switchPublisher row).bind fun _ => .ret _

end Operations

/-! ### Runs -/

inductive OwnershipOperation where
  | authorizePublish (conn : UInt64) (app streamKey : String)
  | releasePublisher (conn : UInt64)
  | releasePublisherIfId (conn : UInt64) (publisherId : String)
  | onClose (conn : UInt64)
  | abandonRolesForStream (streamId : String)
  | retryPendingOwnershipReleases
  | reacquireStream (streamId : String)

def OwnershipOperation.prog : OwnershipOperation → BridgeM Unit
  | .authorizePublish conn app streamKey => do
    let _ ← Bridge.authorizePublish conn app streamKey
    pure ()
  | .releasePublisher conn => Bridge.releasePublisher conn
  | .releasePublisherIfId conn publisherId => Bridge.releasePublisherIfId conn publisherId
  | .onClose conn => Bridge.onClose conn
  | .abandonRolesForStream streamId => Bridge.abandonRolesForStream streamId
  | .retryPendingOwnershipReleases => Bridge.retryPendingOwnershipReleases
  | .reacquireStream streamId => Bridge.reacquireStream streamId

theorem OwnershipOperation.honours (op : OwnershipOperation) :
    ownershipContract.Honours op.prog := by
  cases op with
  | authorizePublish conn app streamKey =>
    exact (honours_authorizePublish app streamKey).bind fun _ => .ret _
  | releasePublisher conn => exact honours_releasePublisher
  | releasePublisherIfId conn publisherId => exact honours_releasePublisherIfId publisherId
  | onClose conn => exact honours_onClose
  | abandonRolesForStream streamId => exact honours_abandon streamId
  | retryPendingOwnershipReleases => exact honours_retryReleases
  | reacquireStream streamId => exact honours_reacquire streamId

/-- Every epoch granted to this node was released, is recorded, or gave way to a newer one of its
stream. -/
def Bridge.EpochsAccounted (s : Bridge) : Prop :=
  ∀ g ∈ s.granted, g ∈ s.released ∨ (∃ conn, s.ownershipEpochs.lookup conn = some g) ∨
    s.newestEpoch g.1 ≠ some g.2

theorem Bridge.EpochsAccounted.forgotten (h : s.EpochsAccounted) : s.forgottenEpochs = ∅ := by
  refine eq_empty_of_forall_notMem ?_
  rintro g ⟨-, hnewest, hreleased, hentries⟩
  have hmem : g ∈ s.granted := by
    obtain ⟨g', hg', hepoch⟩ := map_eq_some_iff.1 hnewest
    have hstream : g'.1 = g.1 := by simpa using find?_some hg'
    rw [← Prod.ext hstream hepoch]
    exact mem_of_find?_eq_some hg'
  rcases h g hmem with hr | ⟨conn, hconn⟩ | hnew
  · exact hreleased hr
  · exact hentries conn hconn
  · exact hnew hnewest

theorem epochsAccounted_of_forgotten (hc : s.coordinator = .cluster) (h : s.forgottenEpochs = ∅) :
    s.EpochsAccounted := by
  intro g _
  by_contra hno
  rw [not_or, not_or, not_exists, not_not] at hno
  obtain ⟨hreleased, hentries, hnewest⟩ := hno
  exact Set.notMem_empty g (h ▸ ⟨hc, hnewest, hreleased, hentries⟩)

theorem coordinator_of_replay {es : List (Event OwnershipOperation Outcome)}
    {p : Pool Bridge Action Action.Answer}
    (h : replay (Pool.step Action.exec OwnershipOperation.prog) ⟨s, []⟩ es = some p) :
    p.state.coordinator = s.coordinator := by
  refine replay_inv (P := fun p => p.state.coordinator = s.coordinator) ?_ rfl h
  intro p e p' _ hp hstep
  cases e with
  | start op =>
    cases hstep
    exact hp
  | advance i w =>
    obtain ⟨a, next, -, rfl⟩ := Pool.step_advance hstep
    exact (sameBooks_exec a w p.state).1.trans hp

/-- An entry is taken from a connection only once its epoch was released, and whenever no operation
is in progress every granted epoch is accounted for. -/
theorem ownership_epochs_kept {s : Bridge} {es : List (Event OwnershipOperation Outcome)}
    {p : Pool Bridge Action Action.Answer} (hc : s.coordinator = .cluster) (hs : s.EpochsAccounted)
    (hok : along (Pool.step Action.exec OwnershipOperation.prog) (Pool.allows ownershipOk) es
      ⟨s, []⟩ = true)
    (h : replay (Pool.step Action.exec OwnershipOperation.prog) ⟨s, []⟩ es = some p) :
    (∀ (i : Nat) a next w, p.threads[i]? = some (Prog.act a next) →
        ownershipOk p.state a w = true → KeepsEntries p.state (a.exec w p.state).1) ∧
      (p.idle = true → p.state.EpochsAccounted) := by
  have hops : ∀ op, ownershipContract.Honours (OwnershipOperation.prog op) :=
    OwnershipOperation.honours
  constructor
  · intro i a next w hi hw
    exact Contract.guarantee hops hok h hi hw
  · intro hidle
    have hcluster := (coordinator_of_replay h).trans hc
    have hforgotten : p.state.forgottenEpochs ⊆ s.forgottenEpochs :=
      Contract.settled hops hok h hidle
    rw [hs.forgotten] at hforgotten
    exact epochsAccounted_of_forgotten hcluster (subset_empty_iff.1 hforgotten)

/-! ### An epoch that is forgotten -/

def publishA : OwnershipOperation := .authorizePublish 7 "live" "pub_a_00000000000000000000000000"

def publishB : OwnershipOperation := .authorizePublish 7 "live" "pub_b_00000000000000000000000000"

/-- Connection 7 publishes `a`. A release of it waits for the answer of the coordinator while the
connection switches to `b`, and then removes the entry. -/
def lateRelease : List (Event OwnershipOperation Outcome) :=
  [Event.start publishA] ++ advances 0 12 { sessionId := some "pa", epoch := some 1 } ++
    [Event.start (OwnershipOperation.releasePublisher 7)] ++ advances 1 6 {} ++
    [Event.start publishB] ++ advances 2 14 { sessionId := some "pb", epoch := some 2 } ++
    advances 1 2 {}

theorem ownership_epoch_forgotten :
    ∃ p, replay (Pool.step Action.exec OwnershipOperation.prog)
        ⟨.start ownedStreams .cluster, []⟩ lateRelease = some p ∧
      p.idle = true ∧ (p.state.publisherOf 7).map (·.streamId) = some "b" ∧
      ¬ p.state.EpochsAccounted := by
  have hrun : (replay (Pool.step Action.exec OwnershipOperation.prog)
      ⟨.start ownedStreams .cluster, []⟩ lateRelease).map (fun p => (p.idle,
        (p.state.publisherOf 7).map (·.streamId), p.state.ownershipEpochs.entries.isEmpty)) =
      some (true, some "b", true) := by
    decide +kernel
  have hbooks : (replay (Pool.step Action.exec OwnershipOperation.prog)
      ⟨.start ownedStreams .cluster, []⟩ lateRelease).map (fun p => (p.state.granted,
        p.state.released)) = some ([("b", 2), ("a", 1)], [("a", 1), ("a", 1)]) := by
    decide +kernel
  obtain ⟨p, hp, heq⟩ := map_eq_some_iff.1 hrun
  rw [hp] at hbooks
  simp only [map_some, some.injEq, Prod.mk.injEq] at heq hbooks
  obtain ⟨hidle, hpub, hentries⟩ := heq
  obtain ⟨hgranted, hreleased⟩ := hbooks
  refine ⟨p, hp, hidle, hpub, fun hacc => ?_⟩
  have hempty : p.state.ownershipEpochs = ∅ := AList.ext (isEmpty_iff.1 hentries)
  have hb := hacc ("b", 2) (by simp [hgranted])
  simp [hreleased, hempty, Bridge.newestEpoch, hgranted] at hb

/-- The switch alone: it releases the epoch of `a` before it records that of `b`. -/
def orderlySwitch : List (Event OwnershipOperation Outcome) :=
  [Event.start publishA] ++ advances 0 12 { sessionId := some "pa", epoch := some 1 } ++
    [Event.start publishB] ++ advances 1 14 { sessionId := some "pb", epoch := some 2 }

theorem ownership_epochs_kept_switch :
    ∃ p, replay (Pool.step Action.exec OwnershipOperation.prog)
        ⟨.start ownedStreams .cluster, []⟩ orderlySwitch = some p ∧
      p.state.granted = [("b", 2), ("a", 1)] ∧ p.state.EpochsAccounted := by
  have hrun : (replay (Pool.step Action.exec OwnershipOperation.prog)
      ⟨.start ownedStreams .cluster, []⟩ orderlySwitch).map (fun p => (p.idle, p.state.granted)) =
      some (true, [("b", 2), ("a", 1)]) := by
    decide +kernel
  obtain ⟨p, hp, heq⟩ := map_eq_some_iff.1 hrun
  simp only [Prod.mk.injEq] at heq
  have hok : along (Pool.step Action.exec OwnershipOperation.prog) (Pool.allows ownershipOk)
      orderlySwitch ⟨.start ownedStreams .cluster, []⟩ = true := by
    decide +kernel
  have hstart : (Bridge.start ownedStreams .cluster).EpochsAccounted :=
    fun g hg => absurd hg not_mem_nil
  exact ⟨p, hp, heq.2, (ownership_epochs_kept rfl hstart hok hp).2 heq.1⟩

end RtmpServer
