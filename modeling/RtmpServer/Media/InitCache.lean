import Mathlib.Data.List.Induction
import RtmpServer.Lib.Assoc
import RtmpServer.Media.HubState
import RtmpServer.Media.Wire

/-!
# The init cache

`InitCacheStore` keeps for every stream the headers and the last keyframe a late joiner needs, each
entry under the epoch of its publisher. Frames of the local publisher are staged one by one, an
entry from a remote owner replaces the stored one, and an ownership change removes it; all of these
come from different tasks, one lock section each. What is stored for a key only depends on what it
was given since it was last removed (`heard`, `lookup_run`).
-/

namespace RtmpServer

open Option List

/-! ### Staging frames -/

/-- librtmp2's `CacheFrameKind`. -/
inductive CacheFrameKind where
  | videoSequenceHeader
  | videoKeyframe
  | audioSequenceHeader
  | liveOnly
  deriving DecidableEq, Repr

/-- librtmp2's `classify_cache_frame`, for the frame types it knows. -/
abbrev FrameClassifier := UInt8 → List UInt8 → CacheFrameKind

/-- The arguments of `update_from_frame` beside the key. -/
structure CacheFrame where
  epoch : UInt64
  frameType : UInt8
  timestamp : UInt32
  payload : List UInt8
  deriving DecidableEq, Repr

def FrameClassifier.kind (classify : FrameClassifier) (f : CacheFrame) : CacheFrameKind :=
  classify f.frameType f.payload

namespace InitCacheEntry

/-- `default`, under an epoch. -/
def empty (epoch : UInt64) : InitCacheEntry := ⟨none, none, none, none, epoch⟩

/-- The fields a frame sets. A changed video header makes the staged keyframe stale. -/
def stage (classify : FrameClassifier) (e : InitCacheEntry) (f : CacheFrame) : InitCacheEntry :=
  match classify.kind f with
  | .videoSequenceHeader =>
    { e with
      keyframe := if e.avcHeader ≠ some f.payload then none else e.keyframe
      avcHeader := some f.payload }
  | .videoKeyframe => { e with keyframe := some (f.timestamp, f.payload) }
  | .audioSequenceHeader => { e with aacHeader := some f.payload }
  | .liveOnly =>
    if f.frameType = 2 ∨ f.frameType = 3 then { e with metadata := some f.payload } else e

/-- A frame of a smaller epoch changes nothing, one of a larger epoch starts anew. -/
def update (classify : FrameClassifier) (e : InitCacheEntry) (f : CacheFrame) : InitCacheEntry :=
  if f.epoch < e.epoch then e
  else (if f.epoch > e.epoch then empty f.epoch else e).stage classify f

end InitCacheEntry

namespace InitCacheStore

/-- `update_from_frame`; a frame of an unknown type is not looked at. -/
def updateFromFrame (classify : FrameClassifier) (c : InitCacheStore) (key : StreamKey)
    (f : CacheFrame) : InitCacheStore :=
  if knownFrameType f.frameType then
    c.insert key (((c.lookup key).getD (.empty 0)).update classify f)
  else c

def remove (c : InitCacheStore) (key : StreamKey) : InitCacheStore := c.erase key

def removeStream (c : InitCacheStore) (stream : String) : InitCacheStore :=
  Lib.Assoc.retain (fun key _ => key.2 ≠ stream) c

end InitCacheStore

/-! ### Runs -/

inductive CacheOp where
  | frame (key : StreamKey) (f : CacheFrame)
  | put (key : StreamKey) (entry : InitCacheEntry)
  | remove (key : StreamKey)
  | removeStream (stream : String)
  deriving DecidableEq

def InitCacheStore.apply (classify : FrameClassifier) (c : InitCacheStore) : CacheOp → InitCacheStore
  | .frame key f => c.updateFromFrame classify key f
  | .put key entry => c.put key entry
  | .remove key => c.remove key
  | .removeStream stream => c.removeStream stream

def InitCacheStore.run (classify : FrameClassifier) (ops : List CacheOp) : InitCacheStore :=
  ops.foldl (InitCacheStore.apply classify) ∅

namespace CacheOp

def removes (key : StreamKey) : CacheOp → Bool
  | .remove key' => key' = key
  | .removeStream stream => key.2 = stream
  | _ => false

/-- What the call offers for the key: a frame of a known type, or an entry. -/
def offer (key : StreamKey) : CacheOp → Option (CacheFrame ⊕ InitCacheEntry)
  | .frame key' f => if key' = key ∧ knownFrameType f.frameType then some (.inl f) else none
  | .put key' entry => if key' = key then some (.inr entry) else none
  | _ => none

end CacheOp

/-- What the key was offered since it was last removed. -/
def heard (key : StreamKey) (ops : List CacheOp) : List (CacheFrame ⊕ InitCacheEntry) :=
  ops.foldl (fun l op => if op.removes key then [] else l ++ (op.offer key).toList) []

def takeOffer (classify : FrameClassifier) (e : Option InitCacheEntry) :
    CacheFrame ⊕ InitCacheEntry → Option InitCacheEntry
  | .inl f => some ((e.getD (.empty 0)).update classify f)
  | .inr entry => if e.any fun existing => decide (entry.epoch < existing.epoch) then e else some entry

theorem heard_snoc (key : StreamKey) (ops : List CacheOp) (op : CacheOp) :
    heard key (ops ++ [op]) =
      if op.removes key then [] else heard key ops ++ (op.offer key).toList := by
  simp [heard]

theorem InitCacheStore.lookup_removeStream (c : InitCacheStore) (stream : String) (key : StreamKey) :
    (c.removeStream stream).lookup key = if key.2 = stream then none else c.lookup key := by
  rw [removeStream, Lib.Assoc.lookup_retain]
  by_cases hkey : key.2 = stream
  · simp [hkey]
  · cases c.lookup key <;> simp [hkey]

theorem InitCacheStore.lookup_apply (classify : FrameClassifier) (c : InitCacheStore) (op : CacheOp)
    (key : StreamKey) :
    (c.apply classify op).lookup key =
      if op.removes key then none
      else ((op.offer key).map (takeOffer classify (c.lookup key))).getD (c.lookup key) := by
  cases op with
  | frame key' f =>
    by_cases hknown : knownFrameType f.frameType = true
    · by_cases hkey : key' = key
      · subst hkey
        simp [apply, updateFromFrame, CacheOp.removes, CacheOp.offer, takeOffer, hknown]
      · simp [apply, updateFromFrame, CacheOp.removes, CacheOp.offer, hknown, hkey,
          AList.lookup_insert_ne (Ne.symm hkey)]
    · simp [apply, updateFromFrame, CacheOp.removes, CacheOp.offer, hknown]
  | put key' entry =>
    by_cases hkey : key' = key
    · subst hkey
      simp only [apply, put, CacheOp.removes, CacheOp.offer, if_true, map_some,
        getD_some, takeOffer, Bool.false_eq_true, if_false]
      split
      · rfl
      · exact AList.lookup_insert c
    · simp only [apply, put, CacheOp.removes, CacheOp.offer, hkey]
      split <;> simp [AList.lookup_insert_ne (Ne.symm hkey)]
  | remove key' =>
    simp only [apply, remove, CacheOp.removes, CacheOp.offer, Lib.Assoc.lookup_erase]
    by_cases hkey : key = key'
    · simp [hkey]
    · simp [hkey, Ne.symm hkey]
  | removeStream stream =>
    rw [apply, lookup_removeStream]
    by_cases hkey : key.2 = stream
    · simp [CacheOp.removes, hkey]
    · simp [CacheOp.removes, CacheOp.offer, hkey]

theorem InitCacheStore.lookup_run (classify : FrameClassifier) (ops : List CacheOp)
    (key : StreamKey) :
    (run classify ops).lookup key = (heard key ops).foldl (takeOffer classify) none := by
  induction ops using reverseRecOn with
  | nil => rfl
  | append_singleton ops op ih =>
    rw [run, foldl_append, ← run, foldl_cons, foldl_nil, lookup_apply, heard_snoc, ih]
    split
    · rfl
    · cases op.offer key with
      | none => simp
      | some o => simp

/-! ### What an entry is made of -/

namespace InitCacheEntry

variable {classify : FrameClassifier} {e : InitCacheEntry} {f : CacheFrame}

@[simp] theorem epoch_stage : (e.stage classify f).epoch = e.epoch := by
  unfold stage
  split
  · rfl
  · rfl
  · rfl
  · split <;> rfl

theorem update_cases (classify : FrameClassifier) (e : InitCacheEntry) (f : CacheFrame) :
    f.epoch < e.epoch ∧ e.update classify f = e ∨
      f.epoch = e.epoch ∧ e.update classify f = e.stage classify f ∨
      e.epoch < f.epoch ∧ e.update classify f = (empty f.epoch).stage classify f := by
  unfold update
  by_cases hlt : f.epoch < e.epoch
  · exact .inl ⟨hlt, if_pos hlt⟩
  · by_cases hgt : f.epoch > e.epoch
    · exact .inr (.inr ⟨hgt, by rw [if_neg hlt, if_pos hgt]⟩)
    · have heq : f.epoch = e.epoch := UInt64.le_antisymm (UInt64.not_lt.1 hgt) (UInt64.not_lt.1 hlt)
      exact .inr (.inl ⟨heq, by rw [if_neg hlt, if_neg hgt]⟩)

end InitCacheEntry

def offerEpoch : CacheFrame ⊕ InitCacheEntry → UInt64
  | .inl f => f.epoch
  | .inr entry => entry.epoch

/-- What an offer has for the parts of an entry, in an entry of its own. -/
def offered (classify : FrameClassifier) : CacheFrame ⊕ InitCacheEntry → InitCacheEntry
  | .inl f => (InitCacheEntry.empty f.epoch).stage classify f
  | .inr entry => entry

inductive InitPart where
  | metadata
  | avcHeader
  | aacHeader
  | keyframe

def InitCacheEntry.part (e : InitCacheEntry) : InitPart → Option (UInt32 × List UInt8)
  | .metadata => e.metadata.map (Prod.mk 0)
  | .avcHeader => e.avcHeader.map (Prod.mk 0)
  | .aacHeader => e.aacHeader.map (Prod.mk 0)
  | .keyframe => e.keyframe

/-- Every part of the entry was offered under the entry's epoch. -/
def FromEpoch (classify : FrameClassifier) (l : List (CacheFrame ⊕ InitCacheEntry))
    (e : InitCacheEntry) : Prop :=
  ∀ part v, e.part part = some v →
    ∃ o ∈ l, offerEpoch o = e.epoch ∧ (offered classify o).part part = some v

def offeredFrames (epoch : UInt64) (l : List (CacheFrame ⊕ InitCacheEntry)) : List CacheFrame :=
  (l.filterMap Sum.getLeft?).filter fun f => f.epoch = epoch

def framesOnly (epoch : UInt64) (l : List (CacheFrame ⊕ InitCacheEntry)) : Prop :=
  ∀ entry, .inr entry ∈ l → entry.epoch ≠ epoch

def lastHeader (classify : FrameClassifier) (frames : List CacheFrame) : Option (List UInt8) :=
  (frames.filter fun f => classify.kind f = .videoSequenceHeader).getLast?.map CacheFrame.payload

/-- The keyframe is the latest among the frames, and the last video header before it, if there is
one, and all after it are the stored one. -/
def KeyframeFresh (classify : FrameClassifier) (frames : List CacheFrame) (e : InitCacheEntry) :
    Prop :=
  ∀ kf, e.keyframe = some kf →
    ∃ before after f, frames = before ++ f :: after ∧ classify.kind f = .videoKeyframe ∧
      kf = (f.timestamp, f.payload) ∧ (∀ g ∈ after, classify.kind g ≠ .videoKeyframe) ∧
      (∀ p, lastHeader classify before = some p → e.avcHeader = some p) ∧
      ∀ g ∈ after, classify.kind g = .videoSequenceHeader → e.avcHeader = some g.payload

section Made

variable {classify : FrameClassifier} {l : List (CacheFrame ⊕ InitCacheEntry)} {e : InitCacheEntry}
  {f : CacheFrame} {frames : List CacheFrame}

theorem part_stage {part : InitPart} {v : UInt32 × List UInt8}
    (h : (e.stage classify f).part part = some v) :
    (offered classify (.inl f)).part part = some v ∨ e.part part = some v := by
  simp only [offered, InitCacheEntry.stage] at h ⊢
  cases hkind : classify.kind f with
  | videoSequenceHeader =>
    simp only [hkind] at h
    cases part with
    | avcHeader => exact .inl h
    | keyframe =>
      by_cases hsame : e.avcHeader = some f.payload
      · exact .inr (by simpa [InitCacheEntry.part, hsame] using h)
      · simp [InitCacheEntry.part, hsame] at h
    | metadata | aacHeader => exact .inr h
  | videoKeyframe =>
    simp only [hkind] at h
    cases part with
    | keyframe => exact .inl h
    | metadata | avcHeader | aacHeader => exact .inr h
  | audioSequenceHeader =>
    simp only [hkind] at h
    cases part with
    | aacHeader => exact .inl h
    | metadata | avcHeader | keyframe => exact .inr h
  | liveOnly =>
    simp only [hkind] at h
    by_cases hscript : f.frameType = 2 ∨ f.frameType = 3
    · simp only [hscript, if_true] at h ⊢
      cases part with
      | metadata => exact .inl h
      | avcHeader | aacHeader | keyframe => exact .inr h
    · simp only [hscript, if_false] at h
      exact .inr h

theorem FromEpoch.empty (l : List (CacheFrame ⊕ InitCacheEntry)) (epoch : UInt64) :
    FromEpoch classify l (.empty epoch) := by
  intro part v h
  cases part <;> cases h

theorem FromEpoch.snoc (h : FromEpoch classify l e) (o : CacheFrame ⊕ InitCacheEntry) :
    FromEpoch classify (l ++ [o]) e := by
  intro part v hv
  obtain ⟨o', ho', hepoch, hpart⟩ := h part v hv
  exact ⟨o', mem_append_left _ ho', hepoch, hpart⟩

theorem FromEpoch.stage (h : FromEpoch classify l e) (hepoch : f.epoch = e.epoch) :
    FromEpoch classify (l ++ [.inl f]) (e.stage classify f) := by
  intro part v hv
  rw [InitCacheEntry.epoch_stage]
  rcases part_stage hv with hv | hv
  · exact ⟨.inl f, mem_append_right _ (mem_singleton_self _), hepoch, hv⟩
  · exact h.snoc (.inl f) part v hv

theorem lastHeader_snoc (classify : FrameClassifier) (frames : List CacheFrame) (f : CacheFrame) :
    lastHeader classify (frames ++ [f]) =
      if classify.kind f = .videoSequenceHeader then some f.payload
      else lastHeader classify frames := by
  unfold lastHeader
  by_cases hkind : classify.kind f = .videoSequenceHeader
  · simp [hkind]
  · simp [hkind]

structure BuiltFrom (classify : FrameClassifier) (frames : List CacheFrame) (e : InitCacheEntry) :
    Prop where
  header : e.avcHeader = lastHeader classify frames
  keyframe : KeyframeFresh classify frames e

theorem BuiltFrom.empty (epoch : UInt64) : BuiltFrom classify [] (.empty epoch) :=
  ⟨rfl, fun kf hkf => by cases hkf⟩

theorem KeyframeFresh.snoc {e' : InitCacheEntry} (h : KeyframeFresh classify frames e)
    (hkeyframe : e'.keyframe = e.keyframe) (havc : e'.avcHeader = e.avcHeader)
    (hkind : classify.kind f ≠ .videoKeyframe)
    (hheader : classify.kind f = .videoSequenceHeader → e'.avcHeader = some f.payload) :
    KeyframeFresh classify (frames ++ [f]) e' := by
  intro kf hkf
  rw [hkeyframe] at hkf
  obtain ⟨before, after, g, rfl, hg, hpair, hlatest, hbefore, hafter⟩ := h kf hkf
  refine ⟨before, after ++ [f], g, by simp, hg, hpair, ?_, fun p hp => havc ▸ hbefore p hp, ?_⟩
  · intro g' hg'
    rcases mem_append.1 hg' with hg' | hg'
    · exact hlatest g' hg'
    · rwa [mem_singleton.1 hg']
  · intro g' hg' hkind'
    rcases mem_append.1 hg' with hg' | hg'
    · exact havc ▸ hafter g' hg' hkind'
    · rw [mem_singleton.1 hg'] at hkind' ⊢
      exact hheader hkind'

theorem BuiltFrom.stage (h : BuiltFrom classify frames e) (f : CacheFrame) :
    BuiltFrom classify (frames ++ [f]) (e.stage classify f) := by
  have hlast := lastHeader_snoc classify frames f
  -- a frame of another kind than the two leaves what the keyframe depends on
  have hother : ∀ {e' : InitCacheEntry}, classify.kind f ≠ .videoSequenceHeader →
      classify.kind f ≠ .videoKeyframe → e'.keyframe = e.keyframe → e'.avcHeader = e.avcHeader →
      BuiltFrom classify (frames ++ [f]) e' := by
    intro e' hheader hkeyframe hkf havc
    refine ⟨?_, h.keyframe.snoc hkf havc hkeyframe fun hc => absurd hc hheader⟩
    rw [hlast, if_neg hheader, havc]
    exact h.header
  cases hkind : classify.kind f with
  | videoSequenceHeader =>
    simp only [InitCacheEntry.stage, hkind]
    refine ⟨by rw [hlast, if_pos hkind], ?_⟩
    by_cases hsame : e.avcHeader = some f.payload
    · exact h.keyframe.snoc (by simp [hsame]) hsame.symm (by simp [hkind]) fun _ => rfl
    · intro kf hkf
      simp [hsame] at hkf
  | videoKeyframe =>
    simp only [InitCacheEntry.stage, hkind]
    refine ⟨?_, fun kf hkf => ?_⟩
    · rw [hlast, if_neg (by simp [hkind])]
      exact h.header
    · refine ⟨frames, [], f, rfl, hkind, (some.inj hkf).symm, ?_, ?_, ?_⟩
      · exact fun g hg => absurd hg not_mem_nil
      · exact fun p hp => h.header.trans hp
      · exact fun g hg => absurd hg not_mem_nil
  | audioSequenceHeader =>
    simp only [InitCacheEntry.stage, hkind]
    exact hother (by simp [hkind]) (by simp [hkind]) rfl rfl
  | liveOnly =>
    simp only [InitCacheEntry.stage, hkind]
    split
    · exact hother (by simp [hkind]) (by simp [hkind]) rfl rfl
    · exact hother (by simp [hkind]) (by simp [hkind]) rfl rfl

/-- What the entry is after the offers `l`. -/
structure Built (classify : FrameClassifier) (l : List (CacheFrame ⊕ InitCacheEntry))
    (e : InitCacheEntry) : Prop where
  newest : ∀ o ∈ l, offerEpoch o ≤ e.epoch
  parts : FromEpoch classify l e
  frames : framesOnly e.epoch l → BuiltFrom classify (offeredFrames e.epoch l) e

theorem Built.empty : Built classify [] (.empty 0) :=
  ⟨fun _ ho => absurd ho not_mem_nil, .empty [] 0, fun _ => .empty 0⟩

theorem offeredFrames_frame (epoch : UInt64) (l : List (CacheFrame ⊕ InitCacheEntry)) (f : CacheFrame) :
    offeredFrames epoch (l ++ [.inl f]) = offeredFrames epoch l ++ if f.epoch = epoch then [f] else [] := by
  by_cases hepoch : f.epoch = epoch <;> simp [offeredFrames, hepoch]

theorem offeredFrames_put (epoch : UInt64) (l : List (CacheFrame ⊕ InitCacheEntry))
    (entry : InitCacheEntry) : offeredFrames epoch (l ++ [.inr entry]) = offeredFrames epoch l := by
  simp [offeredFrames]

theorem offeredFrames_of_lt {epoch : UInt64} (h : ∀ o ∈ l, offerEpoch o < epoch) :
    offeredFrames epoch l = [] := by
  rw [offeredFrames, filter_eq_nil_iff]
  intro f hf heq
  obtain ⟨o, ho, hleft⟩ := mem_filterMap.1 hf
  cases o with
  | inl g =>
    obtain rfl : g = f := some.inj hleft
    exact UInt64.lt_irrefl _ (of_decide_eq_true heq ▸ h _ ho)
  | inr entry => cases hleft

theorem framesOnly_of_snoc {epoch : UInt64} {o : CacheFrame ⊕ InitCacheEntry}
    (h : framesOnly epoch (l ++ [o])) : framesOnly epoch l :=
  fun entry hentry => h entry (mem_append_left _ hentry)

theorem newest_snoc {epoch : UInt64} {o : CacheFrame ⊕ InitCacheEntry}
    (h : ∀ o ∈ l, offerEpoch o ≤ epoch) (ho : offerEpoch o ≤ epoch) :
    ∀ o' ∈ l ++ [o], offerEpoch o' ≤ epoch := by
  intro o' ho'
  rcases mem_append.1 ho' with ho' | ho'
  · exact h o' ho'
  · rwa [mem_singleton.1 ho']

theorem Built.stale (h : Built classify l e) {o : CacheFrame ⊕ InitCacheEntry}
    (ho : offerEpoch o < e.epoch) : Built classify (l ++ [o]) e := by
  refine ⟨newest_snoc h.newest (UInt64.le_of_lt ho), h.parts.snoc o, fun honly => ?_⟩
  have hframes : offeredFrames e.epoch (l ++ [o]) = offeredFrames e.epoch l := by
    cases o with
    | inl f =>
      have hne : f.epoch ≠ e.epoch := UInt64.ne_of_lt ho
      rw [offeredFrames_frame, if_neg hne, append_nil]
    | inr entry => exact offeredFrames_put e.epoch l entry
  rw [hframes]
  exact h.frames (framesOnly_of_snoc honly)

theorem Built.frame (h : Built classify l e) (f : CacheFrame) :
    Built classify (l ++ [.inl f]) (e.update classify f) := by
  rcases e.update_cases classify f with ⟨hlt, heq⟩ | ⟨hepoch, heq⟩ | ⟨hgt, heq⟩
  · rw [heq]
    exact h.stale hlt
  · rw [heq]
    refine ⟨?_, h.parts.stage hepoch, fun honly => ?_⟩
    · rw [InitCacheEntry.epoch_stage]
      exact newest_snoc h.newest (UInt64.le_of_eq hepoch)
    · rw [InitCacheEntry.epoch_stage] at honly ⊢
      rw [offeredFrames_frame, if_pos hepoch]
      exact (h.frames (framesOnly_of_snoc honly)).stage f
  · rw [heq]
    have hbefore : ∀ o ∈ l, offerEpoch o < f.epoch := fun o ho =>
      UInt64.lt_of_le_of_lt (h.newest o ho) hgt
    refine ⟨?_, FromEpoch.stage (.empty l f.epoch) rfl, fun _ => ?_⟩
    · rw [InitCacheEntry.epoch_stage]
      exact newest_snoc (fun o ho => UInt64.le_of_lt (hbefore o ho)) (UInt64.le_refl _)
    · rw [InitCacheEntry.epoch_stage]
      have hframes : offeredFrames f.epoch (l ++ [.inl f]) = [] ++ [f] := by
        rw [offeredFrames_frame, offeredFrames_of_lt hbefore, if_pos rfl]
      show BuiltFrom classify (offeredFrames f.epoch (l ++ [.inl f])) _
      rw [hframes]
      exact (BuiltFrom.empty f.epoch).stage f

theorem Built.put (h : ∀ o ∈ l, offerEpoch o ≤ e.epoch) : Built classify (l ++ [.inr e]) e := by
  have hmem : .inr e ∈ l ++ [(.inr e : CacheFrame ⊕ InitCacheEntry)] :=
    mem_append_right _ (mem_singleton_self _)
  refine ⟨newest_snoc h (UInt64.le_refl _), fun part v hv => ?_, fun honly => ?_⟩
  · exact ⟨.inr e, hmem, rfl, hv⟩
  · exact absurd rfl (honly e hmem)

/-- **The entry after any offers.** -/
theorem built_offers (classify : FrameClassifier) (l : List (CacheFrame ⊕ InitCacheEntry)) :
    Built classify l ((l.foldl (takeOffer classify) none).getD (.empty 0)) := by
  induction l using reverseRecOn with
  | nil => exact .empty
  | append_singleton l o ih =>
    rw [foldl_append, foldl_cons, foldl_nil]
    generalize l.foldl (takeOffer classify) none = st at ih ⊢
    cases o with
    | inl f => exact ih.frame f
    | inr entry =>
      rw [takeOffer]
      cases st with
      | none =>
        refine Built.put fun o ho => ?_
        have hle : offerEpoch o ≤ 0 := ih.newest o ho
        exact UInt64.le_trans hle UInt64.zero_le
      | some existing =>
        by_cases hlt : entry.epoch < existing.epoch
        · simp only [any_some, hlt, decide_true, if_true]
          exact ih.stale hlt
        · simp only [any_some, hlt, decide_false, Bool.false_eq_true, if_false]
          exact Built.put fun o ho => UInt64.le_trans (ih.newest o ho) (UInt64.not_lt.1 hlt)

end Made

theorem takeOffer_some {classify : FrameClassifier} {e e' : InitCacheEntry}
    {o : CacheFrame ⊕ InitCacheEntry} (h : takeOffer classify (some e) o = some e') :
    e.epoch ≤ e'.epoch ∧ (offerEpoch o < e.epoch → e' = e) := by
  cases o with
  | inl f =>
    obtain rfl := some.inj h
    rcases e.update_cases classify f with ⟨hlt, heq⟩ | ⟨hepoch, heq⟩ | ⟨hgt, heq⟩
    · exact ⟨by rw [getD_some, heq]; exact UInt64.le_refl _, fun _ => heq⟩
    · refine ⟨by simp [heq], fun hlt => absurd hlt ?_⟩
      exact UInt64.not_lt.2 (UInt64.le_of_eq hepoch.symm)
    · refine ⟨?_, fun hlt => absurd hlt (UInt64.not_lt.2 (UInt64.le_of_lt hgt))⟩
      rw [getD_some, heq, InitCacheEntry.epoch_stage]
      exact UInt64.le_of_lt hgt
  | inr entry =>
    rw [takeOffer, any_some] at h
    by_cases hlt : entry.epoch < e.epoch
    · simp only [hlt, decide_true, if_true, some.injEq] at h
      exact ⟨UInt64.le_of_eq (by rw [h]), fun _ => h.symm⟩
    · simp only [hlt, decide_false, Bool.false_eq_true, if_false, some.injEq] at h
      subst h
      exact ⟨UInt64.not_lt.1 hlt, fun hc => absurd hc hlt⟩

/-- **The cache never mixes publishers.** What is stored for a key is of one epoch, with a keyframe
that fits the stored header when it was built from frames, and every further call but a removal
keeps or raises the epoch; one that offers nothing or something of a smaller epoch changes nothing. -/
theorem cache_never_mixes (classify : FrameClassifier) (ops : List CacheOp) (key : StreamKey)
    (e : InitCacheEntry) (h : (InitCacheStore.run classify ops).lookup key = some e) :
    FromEpoch classify (heard key ops) e ∧
      (framesOnly e.epoch (heard key ops) →
        KeyframeFresh classify (offeredFrames e.epoch (heard key ops)) e) ∧
      ∀ op : CacheOp, op.removes key = false →
        ∃ e', (InitCacheStore.run classify (ops ++ [op])).lookup key = some e' ∧
          e.epoch ≤ e'.epoch ∧ ((∀ o, op.offer key = some o → offerEpoch o < e.epoch) → e' = e) := by
  have hbuilt := built_offers classify (heard key ops)
  rw [← InitCacheStore.lookup_run, h, getD_some] at hbuilt
  refine ⟨hbuilt.parts, fun honly => (hbuilt.frames honly).keyframe, fun op hop => ?_⟩
  have hnext : (InitCacheStore.run classify (ops ++ [op])).lookup key =
      ((op.offer key).map (takeOffer classify (some e))).getD (some e) := by
    rw [InitCacheStore.run, foldl_append, ← InitCacheStore.run, foldl_cons, foldl_nil,
      InitCacheStore.lookup_apply, h, hop]
    simp
  cases hoffer : op.offer key with
  | none => exact ⟨e, by simp [hnext, hoffer], UInt64.le_refl _, fun _ => rfl⟩
  | some o =>
    have htake : ∃ e', takeOffer classify (some e) o = some e' := by
      cases o with
      | inl f => exact ⟨_, rfl⟩
      | inr entry =>
        rw [takeOffer]
        split
        · exact ⟨e, rfl⟩
        · exact ⟨entry, rfl⟩
    obtain ⟨e', he'⟩ := htake
    obtain ⟨hle, hsame⟩ := takeOffer_some he'
    refine ⟨e', by rw [hnext, hoffer, map_some, getD_some, he'], hle, fun hall => ?_⟩
    exact hsame (hall o rfl)

/-- The classifier on the legacy FLV tags of the tests in `cache.rs`. -/
def flvTags : FrameClassifier := fun _ payload =>
  match payload with
  | 0x17 :: 0x00 :: _ => .videoSequenceHeader
  | 0x17 :: 0x01 :: _ => .videoKeyframe
  | 0xAF :: 0x00 :: _ => .audioSequenceHeader
  | _ => .liveOnly

def avcSeq : List UInt8 :=
  [0x17, 0x00, 0x00, 0x00, 0x00, 0x01, 0x64, 0x00, 0x1F, 0xFF, 0xE1, 0x00, 0x02, 0x67, 0x01, 0x01,
    0x00, 0x02, 0x68, 0x01]

def avcKey : List UInt8 := [0x17, 0x01, 0x00, 0x00, 0x00, 0x65]

def avcInter : List UInt8 := [0x27, 0x01, 0x00, 0x00, 0x00, 0x41]

/-- A header and a keyframe, the same header again, and a frame of the publisher before. -/
def stagedOps : List CacheOp :=
  [.frame ("live", "s") ⟨5, 1, 0, avcSeq⟩, .frame ("live", "s") ⟨5, 1, 40, avcKey⟩,
    .frame ("live", "s") ⟨5, 1, 80, avcSeq⟩, .frame ("live", "s") ⟨4, 1, 90, avcKey⟩]

theorem cache_never_mixes_staged :
    (InitCacheStore.run flvTags stagedOps).lookup ("live", "s") =
        some ⟨none, some avcSeq, none, some (40, avcKey), 5⟩ ∧
      KeyframeFresh flvTags (offeredFrames 5 (heard ("live", "s") stagedOps))
        ⟨none, some avcSeq, none, some (40, avcKey), 5⟩ := by
  have hrun : (InitCacheStore.run flvTags stagedOps).lookup ("live", "s") =
      some ⟨none, some avcSeq, none, some (40, avcKey), 5⟩ := by decide
  refine ⟨hrun, (cache_never_mixes flvTags stagedOps ("live", "s") _ hrun).2.1 ?_⟩
  intro entry hentry
  simp [heard, stagedOps, CacheOp.removes, CacheOp.offer, knownFrameType] at hentry

end RtmpServer
