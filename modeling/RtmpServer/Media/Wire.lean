import Mathlib.Algebra.GroupWithZero.Nat
import Mathlib.Data.List.TakeDrop
import RtmpServer.Media.Protocol

/-!
# Media-plane framing

`cluster/media/wire.rs`: a frame is a `u32` length and that many bytes, the JSON of a message in
version 1, a kind byte and a binary record (or, for control messages, the JSON) in version 2. A
reader consumes a `Source`, the bytes that have arrived and what a read beyond them ends with; it
charges the read budget before it reads. serde_json and the wire codes of `DeliveryHint` are outside
the repository and are fields of `WireCodec`.
-/

namespace RtmpServer

open List

/-! ### Errors and byte strings -/

inductive ErrorKind where
  | invalidData
  | unsupported
  | timedOut
  | unexpectedEof
  | other
  deriving DecidableEq, Repr

/-- `std::io::Error`. -/
structure IoError where
  kind : ErrorKind
  message : String
  deriving DecidableEq, Repr

/-- `fn invalid`. -/
def IoError.invalid (message : String) : IoError := ⟨.invalidData, message⟩

def IoError.other (message : String) : IoError := ⟨.other, message⟩

/-- `to_be_bytes` of a `width`-byte integer. -/
def beBytes (width n : Nat) : List UInt8 :=
  (range width).map fun i => UInt8.ofNat (n / 256 ^ (width - 1 - i))

/-- `from_be_bytes`. -/
def beNat (bytes : List UInt8) : Nat := bytes.foldl (fun n b => 256 * n + b.toNat) 0

/-! ### Constants -/

def mediaProtocolVersion : UInt16 := 2
def mediaProtocolMinVersion : UInt16 := 1
def maxFrame : Nat := 32 * 1024 * 1024
def maxControlFrame : Nat := 256 * 1024
def readBudgetChunk : Nat := 256 * 1024
def maxAppLen : Nat := 255
def maxStreamLen : Nat := 1024
def kindControl : UInt8 := 0
def kindMediaFrame : UInt8 := 1
def kindInitCache : UInt8 := 2
def mediaFixedLen : Nat := 1 + 1 + 1 + 8 + 4 + 4 + 1 + 2 + 4
def initFixedLen : Nat := 1 + 8 + 4 + 1 + 2

def isSupportedVersion (version : UInt16) : Bool :=
  mediaProtocolMinVersion ≤ version ∧ version ≤ mediaProtocolVersion

/-- serde_json for `MediaMessage`, and the wire codes of librtmp2's `DeliveryHint`. -/
structure WireCodec where
  toJson : MediaMessage → List UInt8
  fromJson : List UInt8 → Except String MediaMessage
  hintToU8 : DeliveryHint → UInt8
  hintFromU8 : UInt8 → Option DeliveryHint

/-- `frame_type_to_librtmp2` knows the type. -/
def knownFrameType (frameType : UInt8) : Bool := frameType < 4

/-- `check_names`; lengths are in bytes. -/
def checkNames (app stream : String) : Except IoError Unit :=
  if app.utf8ByteSize > maxAppLen ∨ stream.utf8ByteSize > maxStreamLen then
    .error (.other "media name too long")
  else .ok ()

def checkMessageNames : MediaMessage → Except IoError Unit
  | .subscribe app stream _ _ | .unsubscribe app stream | .streamStart app stream _ _
  | .streamStop app stream _ | .initCache app stream _ _ _ _ _
  | .mediaFrame app stream _ _ _ _ _ _ => checkNames app stream
  | _ => .ok ()

/-! ### Writing -/

def frameLen (len : Nat) : Except IoError Nat :=
  if len > maxFrame then .error (.other "media frame too large") else .ok len

namespace WireCodec

variable (c : WireCodec)

def writeFrameV1 (msg : MediaMessage) : Except IoError (List UInt8) :=
  let bytes := c.toJson msg
  if bytes.length > maxFrame then .error (.other "media frame too large")
  else .ok (beBytes 4 bytes.length ++ bytes)

def presenceBits (parts : List (Option (List UInt8))) : Nat :=
  (parts.zipIdx.map fun p => if p.1.isSome then 2 ^ p.2 else 0).sum

def writeFrameV2 : MediaMessage → Except IoError (List UInt8)
  | .mediaFrame app stream epoch frameType timestamp timelineTs hint payload => do
    checkNames app stream
    let app := app.toUTF8.data.toList
    let stream := stream.toUTF8.data.toList
    let len ← frameLen (1 + mediaFixedLen + app.length + stream.length + payload.length)
    return beBytes 4 len ++ [kindMediaFrame, c.hintToU8 hint, frameType, 0] ++ beBytes 8 epoch.toNat
      ++ beBytes 4 timestamp.toNat ++ beBytes 4 timelineTs.toNat ++ beBytes 1 app.length
      ++ beBytes 2 stream.length ++ beBytes 4 payload.length ++ app ++ stream ++ payload
  | .initCache app stream epoch metadata avcHeader aacHeader keyframe => do
    checkNames app stream
    let app := app.toUTF8.data.toList
    let stream := stream.toUTF8.data.toList
    let parts := [metadata, avcHeader, aacHeader, keyframe.map Prod.snd]
    let len ← frameLen (1 + initFixedLen + app.length + stream.length
      + (parts.map fun p => (p.map fun bytes => 4 + bytes.length).getD 0).sum)
    return beBytes 4 len ++ [kindInitCache] ++ beBytes 1 (presenceBits parts) ++ beBytes 8 epoch.toNat
      ++ beBytes 4 ((keyframe.map fun kf => kf.1.toNat).getD 0) ++ beBytes 1 app.length
      ++ beBytes 2 stream.length ++ app ++ stream
      ++ (parts.flatMap fun p => (p.map fun bytes => beBytes 4 bytes.length ++ bytes).getD [])
  | msg => do
    let json := c.toJson msg
    if 1 + json.length > maxControlFrame then throw (.other "media control frame too large")
    let len ← frameLen (1 + json.length)
    return beBytes 4 len ++ [kindControl] ++ json

def writeFrame (msg : MediaMessage) (version : UInt16) : Except IoError (List UInt8) :=
  if version ≥ 2 then c.writeFrameV2 msg else c.writeFrameV1 msg

end WireCodec

/-! ### Reading -/

/-- The bytes that arrived, the error of a read beyond them (the connection ended, or nothing came
in time) and the bytes reserved in the read budget. -/
structure Source where
  input : List UInt8
  atEnd : IoError
  reserved : Nat
  deriving DecidableEq, Repr

abbrev Read (α : Type) := StateT Source (Except IoError) α

def readExact (n : Nat) : Read (List UInt8) := fun s =>
  if n ≤ s.input.length then .ok (s.input.take n, { s with input := s.input.drop n })
  else .error s.atEnd

/-- `reserve_body`; `grant` says whether the shared budget has room for so many more. -/
def reserveBody (grant : Nat → Nat → Bool) (additional : Nat) : Read Unit := fun s =>
  if grant s.reserved additional then .ok ((), { s with reserved := s.reserved + additional })
  else .error (.other "media read memory budget exceeded")

def check {α : Type} (r : Except IoError α) : Read α := fun s => r.map fun a => (a, s)

/-- `if p { return Err(e) }`. -/
def refuseIf (p : Prop) [Decidable p] (e : IoError) : Read Unit := fun s =>
  if p then .error e else .ok ((), s)

def readExactBudgeted (grant : Nat → Nat → Bool) (n : Nat) : Read (List UInt8) := do
  reserveBody grant n
  readExact n

/-- The loop of `read_vec`, in steps of at most `READ_BUDGET_CHUNK`. Every step reads at least one
byte, so the length bounds their number. -/
def readVecLoop (grant : Nat → Nat → Bool) : Nat → Nat → List UInt8 → Read (List UInt8)
  | 0, _, buf => pure buf
  | n + 1, remaining, buf =>
    if remaining = 0 then pure buf
    else do
      let bytes ← readExactBudgeted grant (min remaining readBudgetChunk)
      readVecLoop grant n (remaining - min remaining readBudgetChunk) (buf ++ bytes)

def readVec (grant : Nat → Nat → Bool) (len : Nat) : Read (List UInt8) :=
  readVecLoop grant len len []

def readString (grant : Nat → Nat → Bool) (len : Nat) : Read String := do
  let buf ← readVec grant len
  match String.fromUTF8? ⟨buf.toArray⟩ with
  | some s => pure s
  | none => throw (.invalid "name is not UTF-8")

def headerField (h : List UInt8) (start len : Nat) : Nat := beNat ((h.drop start).take len)

/-- The loop over the parts of an init cache: the parts present, in order, and the bytes left. -/
def readParts (grant : Nat → Nat → Bool) (presence : Nat) :
    List Nat → Nat → Read (List (Option (List UInt8)) × Nat)
  | [], remaining => pure ([], remaining)
  | i :: rest, remaining =>
    if presence.testBit i then do
      refuseIf (remaining < 4) (.invalid "truncated v2 init-cache part")
      let len := beNat (← readExactBudgeted grant 4)
      refuseIf (len > remaining - 4) (.invalid "v2 init-cache part exceeds frame")
      let buf ← readVec grant len
      let (parts, left) ← readParts grant presence rest (remaining - 4 - len)
      return (some buf :: parts, left)
    else do
      let (parts, left) ← readParts grant presence rest remaining
      return (none :: parts, left)

namespace WireCodec

variable (c : WireCodec) (grant : Nat → Nat → Bool)

/-- `serde_json::from_slice`. -/
def parse (buf : List UInt8) : Except IoError MediaMessage := (c.fromJson buf).mapError .other

def readMediaFrameV2 (rest : Nat) : Read MediaMessage := do
  refuseIf (rest < mediaFixedLen) (.invalid "truncated v2 media header")
  let h ← readExactBudgeted grant mediaFixedLen
  match c.hintFromU8 (h.getD 0 0) with
  | none => throw (.invalid "unknown delivery hint")
  | some hint =>
    let frameType := h.getD 1 0
    refuseIf (knownFrameType frameType = false) (.invalid "unknown frame type")
    refuseIf (h.getD 2 0 ≠ 0) (.invalid "unknown v2 media flags")
    let appLen := headerField h 19 1
    let streamLen := headerField h 20 2
    let payloadLen := headerField h 22 4
    refuseIf (streamLen > maxStreamLen) (.invalid "stream name too long")
    refuseIf (mediaFixedLen + appLen + streamLen + payloadLen ≠ rest)
      (.invalid "v2 media length mismatch")
    let app ← readString grant appLen
    let stream ← readString grant streamLen
    let payload ← readVec grant payloadLen
    return .mediaFrame app stream (.ofNat (headerField h 3 8)) frameType
      (.ofNat (headerField h 11 4)) (.ofNat (headerField h 15 4)) hint payload

def readInitCacheV2 (rest : Nat) : Read MediaMessage := do
  refuseIf (rest < initFixedLen) (.invalid "truncated v2 init-cache header")
  let h ← readExactBudgeted grant initFixedLen
  let presence := headerField h 0 1
  refuseIf (presence ≥ 16) (.invalid "unknown init-cache parts")
  let appLen := headerField h 13 1
  let streamLen := headerField h 14 2
  refuseIf (streamLen > maxStreamLen) (.invalid "stream name too long")
  refuseIf (appLen + streamLen > rest - initFixedLen) (.invalid "truncated v2 init-cache names")
  let app ← readString grant appLen
  let stream ← readString grant streamLen
  let (parts, left) ←
    readParts grant presence [0, 1, 2, 3] (rest - initFixedLen - (appLen + streamLen))
  refuseIf (left ≠ 0) (.invalid "trailing bytes in v2 init-cache")
  return .initCache app stream (.ofNat (headerField h 1 8)) (parts.getD 0 none) (parts.getD 1 none)
    (parts.getD 2 none) ((parts.getD 3 none).map fun p => (.ofNat (headerField h 9 4), p))

def readBodyV2 (kind : UInt8) (rest : Nat) : Read MediaMessage :=
  if kind = kindControl then do
    let msg ← check (c.parse (← readVec grant rest))
    match msg with
    | .mediaFrame .. | .initCache .. => throw (.invalid "media message sent as control in v2")
    | _ => check (checkMessageNames msg)
    return msg
  else if kind = kindMediaFrame then c.readMediaFrameV2 grant rest
  else if kind = kindInitCache then readInitCacheV2 grant rest
  -- a version 1 body starts with an opening brace or a quote
  else if kind = 0x7B ∨ kind = 0x22 then
    throw ⟨.unsupported, "peer answered in v1 framing"⟩
  else throw (.invalid "unknown v2 message kind")

/-- The body of a frame, which `read_frame` runs under its timeout. -/
def readBody (version : UInt16) (len : Nat) : Read MediaMessage :=
  if version ≥ 2 then do
    refuseIf (len = 0) (.invalid "empty v2 frame")
    let kind := (← readExactBudgeted grant 1).getD 0 0
    refuseIf (kind = kindControl ∧ len > maxControlFrame) (.other "media control frame too large")
    c.readBodyV2 grant kind (len - 1)
  else do
    let msg ← check (c.parse (← readVec grant len))
    check (checkMessageNames msg)
    return msg

/-- `read_frame`, with the `reserve` closure of the media peers, which starts at 0 bytes. -/
def readFrame (version : UInt16) (max : Nat) : Read MediaMessage := do
  let len := beNat (← readExact 4)
  refuseIf (len > max) (.other "media frame too large")
  reserveBody grant 0
  c.readBody grant version len

end WireCodec

/-! ### What a successful read has consumed -/

section Reads

variable {α β : Type} {s s' : Source} {grant : Nat → Nat → Bool}

theorem read_bind_ok {x : Read α} {f : α → Read β} {b : β} :
    (x >>= f) s = .ok (b, s') ↔ ∃ a t, x s = .ok (a, t) ∧ f a t = .ok (b, s') := by
  show (x s >>= fun p => f p.1 p.2) = _ ↔ _
  cases x s with
  | error e => exact ⟨nofun, nofun⟩
  | ok p => exact ⟨fun h => ⟨p.1, p.2, rfl, h⟩, fun ⟨a, t, hp, h⟩ => by cases hp; exact h⟩

theorem readExact_ok {n : Nat} {bytes : List UInt8} :
    readExact n s = .ok (bytes, s') ↔
      n ≤ s.input.length ∧ bytes = s.input.take n ∧ s' = { s with input := s.input.drop n } := by
  unfold readExact
  by_cases hn : n ≤ s.input.length
  · rw [if_pos hn, Except.ok.injEq, Prod.mk.injEq]
    exact ⟨fun h => ⟨hn, h.1.symm, h.2.symm⟩, fun h => ⟨h.2.1.symm, h.2.2.symm⟩⟩
  · rw [if_neg hn]
    exact ⟨nofun, fun h => absurd h.1 hn⟩

theorem reserveBody_ok {n : Nat} {u : Unit} (h : reserveBody grant n s = .ok (u, s')) :
    s'.input = s.input := by
  unfold reserveBody at h
  split_ifs at h
  cases h
  rfl

theorem readExactBudgeted_ok {n : Nat} {bytes : List UInt8}
    (h : readExactBudgeted grant n s = .ok (bytes, s')) :
    n ≤ s.input.length ∧ bytes = s.input.take n ∧ s'.input = s.input.drop n := by
  obtain ⟨u, t, ht, h⟩ := read_bind_ok.1 h
  obtain ⟨hle, rfl, rfl⟩ := readExact_ok.1 h
  rw [reserveBody_ok ht] at hle ⊢
  exact ⟨hle, rfl, rfl⟩

theorem readVecLoop_ok {n remaining : Nat} {buf bytes : List UInt8} (hn : remaining ≤ n)
    (h : readVecLoop grant n remaining buf s = .ok (bytes, s')) :
    remaining ≤ s.input.length ∧ bytes = buf ++ s.input.take remaining ∧
      s'.input = s.input.drop remaining := by
  induction n generalizing remaining buf s with
  | zero =>
    obtain rfl : remaining = 0 := by omega
    cases h
    exact ⟨Nat.zero_le _, by simp, by simp⟩
  | succ n ih =>
    rw [readVecLoop] at h
    by_cases hzero : remaining = 0
    · rw [if_pos hzero] at h
      cases h
      rw [hzero]
      exact ⟨Nat.zero_le _, by simp, by simp⟩
    · rw [if_neg hzero] at h
      have hstep : 1 ≤ min remaining readBudgetChunk := by
        rw [readBudgetChunk]
        omega
      have hle := Nat.min_le_left remaining readBudgetChunk
      generalize min remaining readBudgetChunk = step at h hstep hle
      obtain ⟨first, t, ht, h⟩ := read_bind_ok.1 h
      obtain ⟨hlen, rfl, hin⟩ := readExactBudgeted_ok ht
      obtain ⟨hrest, rfl, hin'⟩ := ih (by omega) h
      rw [hin, length_drop] at hrest
      refine ⟨by omega, ?_, ?_⟩
      · rw [hin, append_assoc, ← take_add, Nat.add_sub_cancel' hle]
      · rw [hin', hin, drop_drop, Nat.add_sub_cancel' hle]

theorem readVec_ok {len : Nat} {bytes : List UInt8} (h : readVec grant len s = .ok (bytes, s')) :
    len ≤ s.input.length ∧ bytes = s.input.take len ∧ s'.input = s.input.drop len :=
  readVecLoop_ok (Nat.le_refl len) h

theorem check_ok {r : Except IoError α} {a : α} :
    check r s = .ok (a, s') ↔ r = .ok a ∧ s' = s := by
  cases r with
  | error e => exact ⟨nofun, nofun⟩
  | ok b =>
    show Except.ok (b, s) = .ok (a, s') ↔ _
    simp only [Except.ok.injEq, Prod.mk.injEq]
    exact and_congr_right fun _ => eq_comm

theorem refuseIf_ok {p : Prop} [Decidable p] {e : IoError} {u : Unit} :
    refuseIf p e s = .ok (u, s') ↔ ¬ p ∧ s' = s := by
  unfold refuseIf
  by_cases hp : p
  · rw [if_pos hp]
    exact ⟨nofun, fun h => absurd hp h.1⟩
  · rw [if_neg hp, Except.ok.injEq, Prod.mk.injEq]
    exact ⟨fun h => ⟨hp, h.2.symm⟩, fun h => ⟨rfl, h.2.symm⟩⟩

end Reads

/-! ### No frame is of both versions -/

/-- A byte a JSON text can start with: white space, a bracket, a quote, a number, `true`, `false` or
`null`. -/
def isJsonStart (b : UInt8) : Bool :=
  b ∈ ([0x20, 0x09, 0x0A, 0x0D, 0x7B, 0x5B, 0x22, 0x2D, 0x74, 0x66, 0x6E] : List UInt8) ∨
    (0x30 ≤ b ∧ b ≤ 0x39)

/-- serde_json rejects a body whose first byte is not one of JSON. -/
def WireCodec.RejectsNonJson (c : WireCodec) : Prop :=
  ∀ body msg, c.fromJson body = .ok msg → ∃ b rest, body = b :: rest ∧ isJsonStart b = true

section Disjoint

variable {c : WireCodec} {grant : Nat → Nat → Bool} {version : UInt16} {max : Nat}
  {s s' : Source} {msg : MediaMessage}

theorem parse_ok {buf : List UInt8} (h : c.parse buf = .ok msg) : c.fromJson buf = .ok msg := by
  unfold WireCodec.parse at h
  cases hjson : c.fromJson buf with
  | error e =>
    rw [hjson] at h
    cases h
  | ok m =>
    rw [hjson] at h
    cases h
    rfl

theorem readBodyV2_kind {kind : UInt8} {rest : Nat}
    (h : c.readBodyV2 grant kind rest s = .ok (msg, s')) :
    kind = kindControl ∨ kind = kindMediaFrame ∨ kind = kindInitCache := by
  unfold WireCodec.readBodyV2 at h
  split_ifs at h with hcontrol hmedia hinit hjson
  · exact .inl hcontrol
  · exact .inr (.inl hmedia)
  · exact .inr (.inr hinit)
  · cases h
  · cases h

theorem readFrame_body (h : c.readFrame grant version max s = .ok (msg, s')) :
    ∃ len t, t.input = s.input.drop 4 ∧ c.readBody grant version len t = .ok (msg, s') := by
  obtain ⟨lenBytes, s₁, hlen, h⟩ := read_bind_ok.1 h
  obtain ⟨-, -, rfl⟩ := readExact_ok.1 hlen
  obtain ⟨_, s₂, hmax, h⟩ := read_bind_ok.1 h
  obtain ⟨-, rfl⟩ := refuseIf_ok.1 hmax
  obtain ⟨_, s₃, hreserve, h⟩ := read_bind_ok.1 h
  exact ⟨_, s₃, reserveBody_ok hreserve, h⟩

theorem readFrame_first_v2 (hversion : version ≥ 2)
    (h : c.readFrame grant version max s = .ok (msg, s')) :
    ∃ b rest, s.input.drop 4 = b :: rest ∧
      (b = kindControl ∨ b = kindMediaFrame ∨ b = kindInitCache) := by
  obtain ⟨len, t, hin, h⟩ := readFrame_body h
  rw [WireCodec.readBody, if_pos hversion] at h
  obtain ⟨_, s₁, hempty, h₁⟩ := read_bind_ok.1 h
  rw [(refuseIf_ok.1 hempty).2] at h₁
  obtain ⟨kindBytes, s₂, hkind, h₂⟩ := read_bind_ok.1 h₁
  obtain ⟨hle, rfl, -⟩ := readExactBudgeted_ok hkind
  obtain ⟨_, s₃, hcontrol, h₃⟩ := read_bind_ok.1 h₂
  have hkind := readBodyV2_kind h₃
  rw [hin] at hle hkind
  cases hbody : s.input.drop 4 with
  | nil =>
    rw [hbody] at hle
    cases hle
  | cons b rest =>
    rw [hbody] at hkind
    exact ⟨b, rest, rfl, hkind⟩

theorem readFrame_first_v1 (hjson : c.RejectsNonJson) (hversion : ¬ version ≥ 2)
    (h : c.readFrame grant version max s = .ok (msg, s')) :
    ∃ b rest, s.input.drop 4 = b :: rest ∧ isJsonStart b = true := by
  obtain ⟨len, t, hin, h⟩ := readFrame_body h
  rw [WireCodec.readBody, if_neg hversion] at h
  obtain ⟨body, s₁, hvec, h₁⟩ := read_bind_ok.1 h
  obtain ⟨-, rfl, -⟩ := readVec_ok hvec
  obtain ⟨m, s₂, hparse, -⟩ := read_bind_ok.1 h₁
  obtain ⟨b, rest, hbody, hstart⟩ := hjson _ _ (parse_ok (check_ok.1 hparse).1)
  rw [hin] at hbody
  cases hdrop : s.input.drop 4 with
  | nil =>
    rw [hdrop, take_nil] at hbody
    cases hbody
  | cons b' rest' =>
    cases len with
    | zero => cases hbody
    | succ n =>
      rw [hdrop, take_succ_cons] at hbody
      cases hbody
      exact ⟨b, rest', rfl, hstart⟩

theorem readFrame_disjoint (hjson : c.RejectsNonJson) {version' : UInt16} {max' : Nat}
    {grant' : Nat → Nat → Bool} {t t' : Source} {msg' : MediaMessage} (hversion : version < 2)
    (hversion' : 2 ≤ version') (hin : t.input = s.input)
    (h : c.readFrame grant version max s = .ok (msg, s')) :
    c.readFrame grant' version' max' t ≠ .ok (msg', t') := by
  intro h'
  obtain ⟨b, rest, hb, hstart⟩ := readFrame_first_v1 hjson (UInt16.not_le.2 hversion) h
  obtain ⟨b', rest', hb', hkind⟩ := readFrame_first_v2 hversion' h'
  rw [hin, hb] at hb'
  cases hb'
  rcases hkind with rfl | rfl | rfl <;> cases hstart

end Disjoint

end RtmpServer
