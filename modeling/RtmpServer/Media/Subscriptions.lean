import Mathlib.Data.Finset.Card
import RtmpServer.Lib.Refcount
import RtmpServer.Media.Protocol

/-!
# Subscription tables

The two tables of `cluster/media/subscription.rs`. `SubscriptionTable` counts, for the owner of a
stream, the references its peers hold for fan-out; `OutboundSubscriptions` records, for a
subscriber, which local sessions hold a stream of a remote peer and whether a `Subscribe` for it
was put on the current connection.
-/

namespace RtmpServer

open List Lib.Refcount

abbrev PeerKey := UInt64 × StreamKey

/-! ### Owner side -/

/-- `(peer_node, app, stream) -> inbound refcount`. -/
abbrev SubscriptionTable := Counts PeerKey

namespace SubscriptionTable

variable (t : SubscriptionTable) (peer : UInt64) (key : StreamKey)

/-- `add`, and `add_with` once its closure went through. -/
def add : SubscriptionTable := incr t (peer, key)

/-- `remove`, without its answer, which no caller reads. -/
def remove : SubscriptionTable := decr t (peer, key)

def has : Bool := (t.lookup (peer, key)).isSome

def clearPeer : SubscriptionTable := retain (fun k => k.1 != peer) t

end SubscriptionTable

/-! ### Subscriber side -/

/-- `owners`: the sessions that hold a reference, local players or the standby replica. `wired`: a
`Subscribe` was enqueued on the current connection. -/
structure OutboundEntry where
  owners : Finset String
  wired : Bool
  deriving DecidableEq

abbrev OutboundSubscriptions := AList fun _ : PeerKey => OutboundEntry

namespace OutboundSubscriptions

variable (t : OutboundSubscriptions) (owner : String) (peer : UInt64) (key : StreamKey)

def entry : OutboundEntry := (t.lookup (peer, key)).getD ⟨∅, false⟩

/-- `add`, and whether this is the first reference of the key. -/
def add : OutboundSubscriptions × Bool :=
  let e := t.entry peer key
  let owners := insert owner e.owners
  (t.insert (peer, key) { e with owners }, decide (owner ∉ e.owners) && owners.card == 1)

/-- `remove`, and whether the last reference is gone. -/
def remove : OutboundSubscriptions × Bool :=
  match t.lookup (peer, key) with
  | none => (t, false)
  | some e =>
    if owner ∈ e.owners then
      let owners := e.owners.erase owner
      if owners = ∅ then (t.erase (peer, key), true)
      else (t.insert (peer, key) { e with owners }, false)
    else (t, false)

def removeIfSole : OutboundSubscriptions × Bool :=
  match t.lookup (peer, key) with
  | some e => if e.owners = {owner} then (t.erase (peer, key), true) else (t, false)
  | none => (t, false)

def has : Bool := (t.lookup (peer, key)).isSome

def removeAll : OutboundSubscriptions × Bool := (t.erase (peer, key), t.has peer key)

def isWired : Bool := ((t.lookup (peer, key)).map OutboundEntry.wired).getD false

/-- `set_wired`: nothing happens for a key without a reference. -/
def setWired (wired : Bool) : OutboundSubscriptions :=
  match t.lookup (peer, key) with
  | some e => t.insert (peer, key) { e with wired }
  | none => t

/-- `clear_wired`: a new connection carries no wire state. -/
def clearWired : OutboundSubscriptions :=
  ⟨t.entries.map fun e => if e.1.1 = peer then ⟨e.1, { e.2 with wired := false }⟩ else e, by
    have hkeys : (t.entries.map fun e =>
        if e.1.1 = peer then ⟨e.1, { e.2 with wired := false }⟩ else e).keys = t.entries.keys := by
      rw [List.keys, List.map_map]
      refine List.map_congr_left fun e _ => ?_
      by_cases h : e.1.1 = peer
      · rw [Function.comp, if_pos h]
      · rw [Function.comp, if_neg h]
    rw [List.NodupKeys, hkeys]
    exact t.nodupKeys⟩

def streamsForPeer : List StreamKey :=
  (t.entries.filter fun e => e.1.1 == peer).map fun e => e.1.2

/-! ### What each operation does to a key -/

def refs : Finset String := ((t.lookup (peer, key)).map OutboundEntry.owners).getD ∅

variable {t owner peer key}

theorem lookup_clearWired (k : PeerKey) :
    (t.clearWired peer).lookup k =
      (t.lookup k).map fun e => if k.1 = peer then { e with wired := false } else e := by
  have hmap : (t.clearWired peer).entries =
      t.entries.map fun e => ⟨e.1, if e.1.1 = peer then { e.2 with wired := false } else e.2⟩ := by
    refine map_congr_left fun e _ => ?_
    by_cases h : e.1.1 = peer
    · rw [if_pos h, if_pos h]
    · rw [if_neg h, if_neg h]
  rw [AList.lookup, hmap, AList.lookup]
  exact dlookup_map₂ (f := fun (k : PeerKey) (e : OutboundEntry) =>
    if k.1 = peer then { e with wired := false } else e) k

@[simp, grind =] theorem isWired_erase (q : UInt64) (k : StreamKey) :
    isWired (AList.erase (peer, key) t) q k =
      if (q, k) = (peer, key) then false else t.isWired q k := by
  grind [isWired]

@[simp, grind =] theorem has_insert (e : OutboundEntry) (q : UInt64) (k : StreamKey) :
    has (AList.insert (peer, key) e t) q k = (decide ((q, k) = (peer, key)) || t.has q k) := by
  grind [has]

@[simp, grind =] theorem has_erase (q : UInt64) (k : StreamKey) :
    has (AList.erase (peer, key) t) q k = (!decide ((q, k) = (peer, key)) && t.has q k) := by
  grind [has]

theorem has_of_isWired (h : t.isWired peer key) : t.has peer key = true := by
  cases hl : t.lookup (peer, key) <;> simp_all [isWired, has]

/-! #### The operations -/

@[simp, grind =] theorem isWired_add (q : UInt64) (k : StreamKey) :
    (t.add owner peer key).1.isWired q k = t.isWired q k := by
  cases hl : t.lookup (peer, key) <;> grind [add, entry, isWired]

@[simp, grind =] theorem has_add (q : UInt64) (k : StreamKey) :
    (t.add owner peer key).1.has q k = (decide ((q, k) = (peer, key)) || t.has q k) :=
  has_insert _ q k

theorem remove_spec :
    (t.remove owner peer key = (t.erase (peer, key), true) ∧ t.has peer key) ∨
    ((t.remove owner peer key).2 = false ∧
      (∀ q k, (t.remove owner peer key).1.isWired q k = t.isWired q k) ∧
      ∀ q k, (t.remove owner peer key).1.has q k = t.has q k) := by
  cases hl : t.lookup (peer, key) <;> grind [remove, isWired, has]

theorem removeIfSole_spec :
    t.removeIfSole owner peer key = (t.erase (peer, key), true) ∨
      t.removeIfSole owner peer key = (t, false) := by
  grind [removeIfSole]

@[simp, grind =] theorem isWired_setWired (wired : Bool) (q : UInt64) (k : StreamKey) :
    (t.setWired peer key wired).isWired q k =
      if (q, k) = (peer, key) then wired && t.has peer key else t.isWired q k := by
  cases hl : t.lookup (peer, key) <;> grind [setWired, isWired, has]

@[simp, grind =] theorem has_setWired (wired : Bool) (q : UInt64) (k : StreamKey) :
    (t.setWired peer key wired).has q k = t.has q k := by
  cases hl : t.lookup (peer, key) <;> grind [setWired, has]

@[simp, grind =] theorem isWired_clearWired (q : UInt64) (k : StreamKey) :
    (t.clearWired peer).isWired q k = if q = peer then false else t.isWired q k := by
  cases hl : t.lookup (q, k) <;> grind [isWired, lookup_clearWired]

@[simp, grind =] theorem has_clearWired (q : UInt64) (k : StreamKey) :
    (t.clearWired peer).has q k = t.has q k := by
  rw [has, lookup_clearWired, Option.isSome_map, has]

theorem mem_streamsForPeer : key ∈ t.streamsForPeer peer ↔ t.has peer key = true := by
  rw [has, AList.lookup_isSome, AList.mem_keys]
  simp only [streamsForPeer, mem_map, mem_filter, beq_iff_eq, AList.keys, keys]
  constructor
  · rintro ⟨e, ⟨he, rfl⟩, rfl⟩
    exact ⟨e, he, rfl⟩
  · rintro ⟨e, he, hk⟩
    exact ⟨e, ⟨he, by rw [hk]⟩, by rw [hk]⟩

theorem nodup_streamsForPeer : (t.streamsForPeer peer).Nodup := by
  have hkeys : (t.entries.filter fun e => e.1.1 == peer).keys.Nodup :=
    List.Nodup.sublist (filter_sublist.map _) t.nodupKeys
  refine (nodup_map_iff_inj_on (List.Nodup.of_map _ hkeys)).2 fun e he e' he' hk => ?_
  have hpeer : e.1.1 = peer := by simpa using (mem_filter.1 he).2
  have hpeer' : e'.1.1 = peer := by simpa using (mem_filter.1 he').2
  have hkey : e.1 = e'.1 := Prod.ext (hpeer.trans hpeer'.symm) hk
  exact inj_on_of_nodup_map hkeys he he' hkey

/-! #### The references -/

@[simp, grind =] theorem refs_erase (q : UInt64) (k : StreamKey) :
    refs (AList.erase (peer, key) t) q k = if (q, k) = (peer, key) then ∅ else t.refs q k := by
  grind [refs]

@[simp, grind =] theorem refs_add (q : UInt64) (k : StreamKey) :
    (t.add owner peer key).1.refs q k =
      if (q, k) = (peer, key) then insert owner (t.refs peer key) else t.refs q k := by
  cases hl : t.lookup (peer, key) <;> grind [add, entry, refs]

theorem removeIfSole_of_shared (h : t.refs peer key ≠ {owner}) :
    t.removeIfSole owner peer key = (t, false) := by
  grind [removeIfSole, refs]

@[simp, grind =] theorem refs_remove (q : UInt64) (k : StreamKey) :
    (t.remove owner peer key).1.refs q k =
      if (q, k) = (peer, key) then (t.refs peer key).erase owner else t.refs q k := by
  cases hl : t.lookup (peer, key) <;> grind [remove, refs]

@[simp, grind =] theorem refs_setWired (wired : Bool) (q : UInt64) (k : StreamKey) :
    (t.setWired peer key wired).refs q k = t.refs q k := by
  cases hl : t.lookup (peer, key) <;> grind [setWired, refs]

@[simp, grind =] theorem refs_clearWired (q : UInt64) (k : StreamKey) :
    (t.clearWired peer).refs q k = t.refs q k := by
  cases hl : t.lookup (q, k) <;> grind [refs, lookup_clearWired]

end OutboundSubscriptions

end RtmpServer
