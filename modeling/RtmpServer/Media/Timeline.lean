import Mathlib.Algebra.Ring.Int.Defs
import RtmpServer.Media.Inject

/-!
# Timelines across epochs

`TimelineRemapper::map` gives the frames of a stream one timeline while its owner, and with it the
epoch, changes. It is called for every frame that is fanned out or comes in, and for the keyframe of
a staged init cache as long as the stream has no output yet. Every input below the one before it
moves the offset for good, which `drift_within_iff` measures.
-/

namespace RtmpServer

structure Mapped where
  epoch : UInt64
  tsIn : UInt32
  out : UInt32
  deriving DecidableEq, Repr

/-- What reaches the remapper of a stream: a frame, or an init cache from the stream's owner. -/
inductive TimelineCall where
  | frame (epoch : UInt64) (tsIn : UInt32)
  | init (entry : InitCacheEntry)
  deriving DecidableEq

namespace TimelineRemapper

/-- The pair given to `map`, if the call comes to that. -/
def given (r : TimelineRemapper) : TimelineCall → Option (UInt64 × UInt32)
  | .frame epoch tsIn => some (epoch, tsIn)
  | .init entry =>
    if r.lastOut = 0 then entry.keyframe.map fun keyframe => (entry.epoch, keyframe.1) else none

def call (r : TimelineRemapper) : TimelineCall → TimelineRemapper × UInt32
  | .frame epoch tsIn => r.map epoch tsIn
  | .init entry => InjectState.initTimestamp r entry

def mapped (r : TimelineRemapper) : List TimelineCall → List Mapped
  | [] => []
  | c :: cs => ((r.given c).map fun p => ⟨p.1, p.2, (r.call c).2⟩).toList ++ (r.call c).1.mapped cs

variable {r : TimelineRemapper}

theorem call_of_given {c : TimelineCall} {epoch : UInt64} {tsIn : UInt32}
    (h : r.given c = some (epoch, tsIn)) : r.call c = r.map epoch tsIn := by
  cases c with
  | frame e ts =>
    simp only [given, Option.some.injEq, Prod.mk.injEq] at h
    rw [call, h.1, h.2]
  | init entry =>
    by_cases hzero : r.lastOut = 0
    · cases hkf : entry.keyframe with
      | none => simp [given, hzero, hkf] at h
      | some kf =>
        simp only [given, hzero, hkf, if_true, Option.map_some, Option.some.injEq,
          Prod.mk.injEq] at h
        rw [call, InjectState.initTimestamp, hkf, ← h.1, ← h.2]
        exact if_pos hzero
    · simp [given, hzero] at h

theorem call_of_not_given {c : TimelineCall} (h : r.given c = none) : (r.call c).1 = r := by
  cases c with
  | frame e ts => simp [given] at h
  | init entry =>
    rw [call, InjectState.initTimestamp]
    cases hkf : entry.keyframe with
    | none => rfl
    | some kf =>
      have hne : r.lastOut ≠ 0 := by
        intro hzero
        simp [given, hzero, hkf] at h
      simp [hne]

/-! ### One call of map -/

def tried (r : TimelineRemapper) (epoch : UInt64) (tsIn : UInt32) : UInt32 :=
  if r.currentEpoch = some epoch then r.offset
  else if r.currentEpoch.isSome then r.lastOut + 1 - tsIn else 0

theorem map_eq (r : TimelineRemapper) (epoch : UInt64) (tsIn : UInt32) :
    r.map epoch tsIn =
      if tsIn + r.tried epoch tsIn < r.lastOut then
        (⟨r.lastOut + 1 - tsIn, r.lastOut + 1, some epoch, tsIn⟩, r.lastOut + 1)
      else
        (⟨r.tried epoch tsIn, tsIn + r.tried epoch tsIn, some epoch, tsIn⟩,
          tsIn + r.tried epoch tsIn) := by
  have hback : tsIn + (r.lastOut + 1 - tsIn) = r.lastOut + 1 := by
    rw [UInt32.add_comm, UInt32.sub_add_cancel]
  by_cases hepoch : r.currentEpoch = some epoch
  · simp [map, enterEpoch, tried, hepoch, hback]
  · simp [map, enterEpoch, tried, hepoch, hback]

theorem map_out (r : TimelineRemapper) (epoch : UInt64) (tsIn : UInt32) :
    (r.map epoch tsIn).2 =
      if tsIn + r.tried epoch tsIn < r.lastOut then r.lastOut + 1
      else tsIn + r.tried epoch tsIn := by
  rw [map_eq]
  split <;> rfl

/-- The state right after a call of `map`. -/
structure After (m : Mapped) (r : TimelineRemapper) : Prop where
  epoch : r.currentEpoch = some m.epoch
  last : r.lastOut = m.out
  offset : m.tsIn + r.offset = m.out

theorem after_map (r : TimelineRemapper) (epoch : UInt64) (tsIn : UInt32) :
    After ⟨epoch, tsIn, (r.map epoch tsIn).2⟩ (r.map epoch tsIn).1 := by
  rw [map_eq]
  split
  · refine ⟨rfl, rfl, ?_⟩
    simp only
    rw [UInt32.add_comm, UInt32.sub_add_cancel]
  · exact ⟨rfl, rfl, rfl⟩

theorem After.map_out {m : Mapped} (h : After m r) (tsIn : UInt32) :
    (r.map m.epoch tsIn).2 =
      if tsIn + r.offset < m.out then m.out + 1 else tsIn + r.offset := by
  rw [TimelineRemapper.map_out, tried, if_pos h.epoch, h.last]

/-! ### Monotonicity -/

/-- What two calls of `map`, one right after the other, have to do with each other. -/
structure Follows (m m' : Mapped) : Prop where
  monotone : m.out ≤ m'.out ∨ m.out = 0xFFFFFFFF ∧ m'.out = 0
  handoff : m'.epoch ≠ m.epoch → m'.out = m.out + 1
  distance : m'.epoch = m.epoch → m.tsIn ≤ m'.tsIn →
    m.out.toNat + (m'.tsIn - m.tsIn).toNat ≤ 0xFFFFFFFF → m'.out - m.out = m'.tsIn - m.tsIn

theorem le_succ_or (o : UInt32) : o ≤ o + 1 ∨ o = 0xFFFFFFFF ∧ o + 1 = 0 := by
  by_cases hmax : o = 0xFFFFFFFF
  · exact .inr ⟨hmax, by rw [hmax]; rfl⟩
  · refine .inl ?_
    rw [UInt32.le_iff_toNat_le, UInt32.toNat_add]
    have hlt := o.toNat_lt
    have hne : o.toNat ≠ 0xFFFFFFFF := fun h => hmax (UInt32.toNat_inj.1 h)
    simp only [UInt32.reduceToNat]
    omega

theorem After.follows_same {m : Mapped} (h : After m r) (tsIn : UInt32) :
    Follows m ⟨m.epoch, tsIn, (r.map m.epoch tsIn).2⟩ := by
  rw [h.map_out]
  by_cases hback : tsIn + r.offset < m.out
  · rw [if_pos hback]
    refine ⟨le_succ_or _, fun hne => absurd rfl hne, fun _ hle hsum => ?_⟩
    -- a later timestamp of the epoch is not behind the last output
    exfalso
    have hout : m.out.toNat = (m.tsIn.toNat + r.offset.toNat) % 2 ^ 32 := by
      rw [← h.offset, UInt32.toNat_add]
    rw [UInt32.lt_iff_toNat_lt, UInt32.toNat_add] at hback
    rw [UInt32.toNat_sub_of_le _ _ hle] at hsum
    rw [UInt32.le_iff_toNat_le] at hle
    simp only at hle hsum
    omega
  · rw [if_neg hback]
    refine ⟨.inl (UInt32.not_lt.1 hback), fun hne => absurd rfl hne, fun _ _ _ => ?_⟩
    have hout := h.offset
    grind

theorem After.follows {m : Mapped} (h : After m r) (epoch : UInt64) (tsIn : UInt32) :
    Follows m ⟨epoch, tsIn, (r.map epoch tsIn).2⟩ := by
  by_cases hepoch : epoch = m.epoch
  · subst hepoch
    exact h.follows_same tsIn
  · have hout : (r.map epoch tsIn).2 = m.out + 1 := by
      have htried : r.tried epoch tsIn = m.out + 1 - tsIn := by
        simp [tried, h.epoch, h.last, Ne.symm hepoch]
      rw [TimelineRemapper.map_out, htried, h.last, UInt32.add_comm tsIn, UInt32.sub_add_cancel,
        ite_self]
    rw [hout]
    exact ⟨le_succ_or _, fun _ => rfl, fun heq => absurd heq hepoch⟩

theorem After.mapped_follows {m : Mapped} (h : After m r) (cs : List TimelineCall) :
    (m :: r.mapped cs).IsChain Follows := by
  induction cs generalizing m r with
  | nil => exact .singleton m
  | cons c cs ih =>
    rw [mapped]
    cases hgiven : r.given c with
    | none =>
      rw [call_of_not_given hgiven]
      exact ih h
    | some p =>
      rw [call_of_given hgiven]
      exact .cons_cons (h.follows p.1 p.2) (ih (after_map r p.1 p.2))

/-- **The timeline is monotone**, whatever frames and init caches of whatever epochs come. -/
theorem timeline_monotone (cs : List TimelineCall) : (new.mapped cs).IsChain Follows := by
  suffices h : ∀ r : TimelineRemapper, (r.mapped cs).IsChain Follows from h new
  induction cs with
  | nil => exact fun _ => .nil
  | cons c cs ih =>
    intro r
    rw [mapped]
    cases hgiven : r.given c with
    | none => exact ih _
    | some p =>
      rw [call_of_given hgiven]
      exact (after_map r p.1 p.2).mapped_follows cs

end TimelineRemapper

/-! ### Drift within an epoch -/

def Mapped.shift (m : Mapped) : Int := m.out.toNat - m.tsIn.toNat

/-- Neither of the outputs `map` may give for the second call wraps around. -/
def Mapped.Unwrapped (m m' : Mapped) : Prop :=
  0 ≤ m.shift + m'.tsIn.toNat ∧ m.shift + m'.tsIn.toNat < 2 ^ 32 ∧
    (m'.tsIn < m.tsIn → m.out.toNat + 1 < 2 ^ 32)

instance (m m' : Mapped) : Decidable (m.Unwrapped m') :=
  inferInstanceAs (Decidable (_ ∧ _ ∧ _))

/-- The steps back in a sequence of inputs, each counted with one more. -/
def stepsBack : List UInt32 → Nat
  | a :: b :: rest => (if b < a then a.toNat - b.toNat + 1 else 0) + stepsBack (b :: rest)
  | _ => 0

/-- No input is more than `J` below the largest before it. -/
def jitterWithin (J : Nat) : Nat → List UInt32 → Bool
  | _, [] => true
  | largest, ts :: rest => largest ≤ ts.toNat + J && jitterWithin J (max largest ts.toNat) rest

namespace TimelineRemapper

def epochFrames (r : TimelineRemapper) (epoch : UInt64) (tss : List UInt32) : List Mapped :=
  r.mapped (tss.map (.frame epoch))

theorem epochFrames_cons (r : TimelineRemapper) (epoch : UInt64) (ts : UInt32) (tss : List UInt32) :
    r.epochFrames epoch (ts :: tss) =
      ⟨epoch, ts, (r.map epoch ts).2⟩ :: (r.map epoch ts).1.epochFrames epoch tss := rfl

theorem After.shift_next {m : Mapped} (h : After m r) {ts : UInt32}
    (hwrap : m.Unwrapped ⟨m.epoch, ts, (r.map m.epoch ts).2⟩) :
    Mapped.shift ⟨m.epoch, ts, (r.map m.epoch ts).2⟩ = m.shift + stepsBack [m.tsIn, ts] := by
  obtain ⟨hlow, hhigh, hback⟩ := hwrap
  simp only [Mapped.shift] at hlow hhigh hback ⊢
  have hout : m.out.toNat = (m.tsIn.toNat + r.offset.toNat) % 2 ^ 32 := by
    rw [← h.offset, UInt32.toNat_add]
  have hnext : (ts + r.offset).toNat = (ts.toNat + r.offset.toNat) % 2 ^ 32 := UInt32.toNat_add _ _
  have hlt : ts + r.offset < m.out ↔ ts < m.tsIn := by
    rw [UInt32.lt_iff_toNat_lt, UInt32.lt_iff_toNat_lt, hnext]
    omega
  rw [h.map_out]
  simp only [stepsBack, hlt]
  by_cases hts : ts < m.tsIn
  · have hsucc : (m.out + 1).toNat = m.out.toNat + 1 := by
      have hroom := hback hts
      rw [UInt32.toNat_add]
      simp only [UInt32.reduceToNat]
      omega
    rw [if_pos hts, if_pos hts, hsucc]
    rw [UInt32.lt_iff_toNat_lt] at hts
    omega
  · rw [if_neg hts, if_neg hts, hnext]
    omega

theorem After.shift_epochFrames {m : Mapped} (h : After m r) (tss : List UInt32)
    (hwrap : (m :: r.epochFrames m.epoch tss).IsChain Mapped.Unwrapped) :
    (∀ m' ∈ r.epochFrames m.epoch tss,
      m.shift ≤ m'.shift ∧ m'.shift ≤ m.shift + stepsBack (m.tsIn :: tss)) ∧
      ∃ m' ∈ m :: r.epochFrames m.epoch tss, m'.shift = m.shift + stepsBack (m.tsIn :: tss) := by
  induction tss generalizing m r with
  | nil =>
    refine ⟨fun m' hm' => absurd hm' List.not_mem_nil, m, List.mem_cons_self, ?_⟩
    simp [stepsBack]
  | cons ts tss ih =>
    rw [epochFrames_cons] at hwrap ⊢
    obtain ⟨hfirst, hrest⟩ := List.isChain_cons_cons.1 hwrap
    have hnext := h.shift_next hfirst
    obtain ⟨hall, last, hlast, hsum⟩ := ih (after_map r m.epoch ts) hrest
    have hsteps : stepsBack (m.tsIn :: ts :: tss) =
        stepsBack [m.tsIn, ts] + stepsBack (ts :: tss) := by
      simp [stepsBack]
    simp only at hall hsum
    refine ⟨fun m' hm' => ?_, last, List.mem_cons_of_mem _ hlast, by omega⟩
    rcases List.mem_cons.1 hm' with rfl | hm'
    · omega
    · have hm' := hall m' hm'
      omega

/-- **Drift within an epoch.** The outputs stay within `J` of the first frame's offset iff the steps
back come to at most `J`. -/
theorem drift_within_iff (r : TimelineRemapper) (epoch : UInt64) (ts : UInt32) (tss : List UInt32)
    (J : Nat) (hwrap : (r.epochFrames epoch (ts :: tss)).IsChain Mapped.Unwrapped) :
    (∀ m ∈ r.epochFrames epoch (ts :: tss),
      (m.shift - Mapped.shift ⟨epoch, ts, (r.map epoch ts).2⟩).natAbs ≤ J) ↔
      stepsBack (ts :: tss) ≤ J := by
  rw [epochFrames_cons] at hwrap ⊢
  obtain ⟨hall, last, hlast, hsum⟩ := (after_map r epoch ts).shift_epochFrames tss hwrap
  simp only at hall hlast hsum
  constructor
  · intro hwithin
    have hle := hwithin last hlast
    omega
  · intro hsteps m hm
    rcases List.mem_cons.1 hm with rfl | hm
    · omega
    · have hm := hall m hm
      omega

/-- Audio and video 40 ms apart, with one step back. -/
theorem drift_within_iff_interleaved :
    (∀ m ∈ new.epochFrames 1 [40, 0, 80],
      (m.shift - Mapped.shift ⟨1, 40, (new.map 1 40).2⟩).natAbs ≤ 41) ↔ stepsBack [40, 0, 80] ≤ 41 :=
  drift_within_iff new 1 40 [0, 80] 41 (by decide)

/-- With inputs never more than 5 below the largest, the outputs are 12 ahead after two steps
back. -/
theorem jitter_drifts :
    jitterWithin 5 0 [5, 0, 5, 0] = true ∧
      (new.epochFrames 1 [5, 0, 5, 0]).IsChain Mapped.Unwrapped ∧
      (new.epochFrames 1 [5, 0, 5, 0]).map Mapped.shift = [0, 6, 6, 12] ∧
      ¬ ∀ m ∈ new.epochFrames 1 [5, 0, 5, 0],
        (m.shift - Mapped.shift ⟨1, 5, (new.map 1 5).2⟩).natAbs ≤ 5 := by
  decide

end TimelineRemapper

end RtmpServer
