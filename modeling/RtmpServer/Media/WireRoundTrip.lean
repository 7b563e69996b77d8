import RtmpServer.Lib.BigEndian
import RtmpServer.Media.Negotiation

/-!
# What is written in version 2 is read back

`Consumes x bytes a` says that the reader `x` takes exactly `bytes` off its input, whatever follows,
and returns `a`, as long as the read budget grants what it asks for. The layouts of the two binary
records are `mediaFrameBytes` and `initCacheBytes`, made of a header of fixed width whose fields are
read back one by one.
-/

namespace RtmpServer

open List Lib.BigEndian Nat Prod

/-! ### Readers that consume exactly -/

/-- The reader takes `bytes` off its input and returns `a`. -/
def Consumes {α : Type} (x : Read α) (bytes : List UInt8) (a : α) : Prop :=
  ∀ rest atEnd reserved,
    ∃ reserved', x ⟨bytes ++ rest, atEnd, reserved⟩ = .ok (a, ⟨rest, atEnd, reserved'⟩)

section Consumes

variable {α β : Type}
variable {bytes : List UInt8} {f : α → Read β} {x : Read α} {a : α} {n : Nat} {b : β}

theorem consumes_pure (a : α) : Consumes (pure a) [] a := fun _ _ r => ⟨r, rfl⟩

theorem Consumes.bind {bytes bytes' : List UInt8} (hx : Consumes x bytes a)
    (hf : Consumes (f a) bytes' b) : Consumes (x >>= f) (bytes ++ bytes') b := by
  intro rest atEnd reserved
  obtain ⟨r₁, h₁⟩ := hx (bytes' ++ rest) atEnd reserved
  obtain ⟨r₂, h₂⟩ := hf rest atEnd r₁
  refine ⟨r₂, read_bind_ok.2 ⟨a, _, ?_, h₂⟩⟩
  rw [append_assoc]
  exact h₁

theorem Consumes.bind_nil (hx : Consumes x [] a) (hf : Consumes (f a) bytes b) :
    Consumes (x >>= f) bytes b :=
  hx.bind hf

theorem Consumes.bind_last (hx : Consumes x bytes a) (hf : Consumes (f a) [] b) :
    Consumes (x >>= f) bytes b := by
  have h := hx.bind hf
  rwa [append_nil] at h

theorem consumes_refuseIf {p : Prop} [Decidable p] (e : IoError) (h : ¬ p) :
    Consumes (refuseIf p e) [] () :=
  fun _ _ r => ⟨r, refuseIf_ok.2 ⟨h, rfl⟩⟩

theorem consumes_check {r : Except IoError α} (h : r = .ok a) : Consumes (check r) [] a :=
  fun _ _ n => ⟨n, check_ok.2 ⟨h, rfl⟩⟩

theorem consumes_readExact (h : bytes.length = n) : Consumes (readExact n) bytes bytes := by
  intro rest atEnd r
  refine ⟨r, readExact_ok.2 ⟨?_, ?_, ?_⟩⟩
  · rw [length_append]
    omega
  · rw [← h, take_left]
  · rw [← h, drop_left]

variable {grant : Nat → Nat → Bool} (hgrant : ∀ reserved n, grant reserved n = true)

include hgrant

theorem consumes_reserveBody (n : Nat) : Consumes (reserveBody grant n) [] () := by
  intro rest atEnd r
  refine ⟨r + n, ?_⟩
  rw [reserveBody, if_pos (hgrant r n)]
  rfl

theorem consumes_readExactBudgeted (h : bytes.length = n) :
    Consumes (readExactBudgeted grant n) bytes bytes :=
  (consumes_reserveBody hgrant n).bind_nil (consumes_readExact h)

theorem consumes_readVecLoop (buf : List UInt8) (h : bytes.length ≤ n) :
    Consumes (readVecLoop grant n bytes.length buf) bytes (buf ++ bytes) := by
  induction n generalizing bytes buf with
  | zero =>
    obtain rfl := eq_nil_of_length_eq_zero (le_zero.1 h)
    rw [append_nil]
    exact consumes_pure buf
  | succ n ih =>
    rw [readVecLoop]
    by_cases hzero : bytes.length = 0
    · obtain rfl := eq_nil_of_length_eq_zero hzero
      rw [if_pos hzero, append_nil]
      exact consumes_pure buf
    · rw [if_neg hzero]
      have hstep : 1 ≤ min bytes.length readBudgetChunk := by
        rw [readBudgetChunk]
        omega
      have hle := min_le_left bytes.length readBudgetChunk
      generalize min bytes.length readBudgetChunk = step at hstep hle ⊢
      -- the chunk and the rest
      have hchunk : (bytes.take step).length = step := by
        rw [length_take]
        omega
      have hrest : bytes.length - step = (bytes.drop step).length := by rw [length_drop]
      have hloop := ih (buf ++ bytes.take step) (show (bytes.drop step).length ≤ n by
        rw [length_drop]
        omega)
      rw [append_assoc, take_append_drop] at hloop
      rw [hrest]
      have hread := (consumes_readExactBudgeted hgrant hchunk).bind
        (f := fun chunk => readVecLoop grant n (bytes.drop step).length (buf ++ chunk)) hloop
      rwa [take_append_drop] at hread

theorem consumes_readVec (bytes : List UInt8) : Consumes (readVec grant bytes.length) bytes bytes :=
  consumes_readVecLoop hgrant [] (le_refl _)

end Consumes

def nameBytes (s : String) : List UInt8 := s.toUTF8.data.toList

theorem length_nameBytes (s : String) : (nameBytes s).length = s.utf8ByteSize := rfl

theorem fromUTF8?_nameBytes (s : String) : String.fromUTF8? ⟨(nameBytes s).toArray⟩ = some s := by
  have hbytes : (⟨(nameBytes s).toArray⟩ : ByteArray) = s.toByteArray := rfl
  rw [hbytes, String.fromUTF8?, dif_pos s.isValidUTF8]
  rfl

theorem nameBytes_of_fromUTF8? {bytes : List UInt8} {s : String}
    (h : String.fromUTF8? ⟨bytes.toArray⟩ = some s) : nameBytes s = bytes := by
  rw [String.fromUTF8?] at h
  split at h
  · cases h
    rfl
  · cases h

theorem consumes_readString {grant : Nat → Nat → Bool}
    (hgrant : ∀ reserved n, grant reserved n) (s : String) :
    Consumes (readString grant (nameBytes s).length) (nameBytes s) s := by
  refine (consumes_readVec hgrant (nameBytes s)).bind_last ?_
  rw [fromUTF8?_nameBytes]
  exact consumes_pure s

/-! ### Layouts -/

theorem beBytes_eq : beBytes = toBytes := rfl

theorem beNat_eq : beNat = ofBytes := rfl

theorem headerField_eq : headerField = field := rfl

def mediaFields (hint frameType : UInt8) (epoch : UInt64) (timestamp timelineTs : UInt32)
    (appLen streamLen payloadLen : Nat) : List (Nat × Nat) :=
  [(1, hint.toNat), (1, frameType.toNat), (1, 0), (8, epoch.toNat), (4, timestamp.toNat),
    (4, timelineTs.toNat), (1, appLen), (2, streamLen), (4, payloadLen)]

def mediaFrameBytes (hint frameType : UInt8) (app stream : String) (epoch : UInt64)
    (timestamp timelineTs : UInt32) (payload : List UInt8) : List UInt8 :=
  toBytes 4 (1 + mediaFixedLen + (nameBytes app).length + (nameBytes stream).length + payload.length)
    ++ ([kindMediaFrame] ++ (pack (mediaFields hint frameType epoch timestamp timelineTs
      (nameBytes app).length (nameBytes stream).length payload.length)
    ++ (nameBytes app ++ (nameBytes stream ++ payload))))

theorem headerField_pack (fields : List (Nat × Nat)) (i : Nat) {start w n : Nat}
    (hi : fields[i]? = some (w, n)) (hstart : width (fields.take i) = start) (hn : n < 256 ^ w) :
    headerField (pack fields) start w = n := by
  rw [headerField_eq, ← hstart, field_pack fields i hi, mod_eq_of_lt hn]

section MediaFields

variable (hint frameType : UInt8) (epoch : UInt64) (timestamp timelineTs : UInt32)
  {appLen streamLen payloadLen : Nat}

theorem mediaFields_bytes (appLen streamLen payloadLen : Nat) :
    ∃ rest, pack (mediaFields hint frameType epoch timestamp timelineTs appLen streamLen payloadLen)
      = hint :: frameType :: 0 :: rest := by
  have hflags : toBytes 1 0 = [0] := rfl
  exact ⟨_, by simp [mediaFields, pack, hflags]; rfl⟩

theorem mediaFields_numbers (happ : appLen < 256 ^ 1) (hstream : streamLen < 256 ^ 2)
    (hpayload : payloadLen < 256 ^ 4) :
    let h := pack (mediaFields hint frameType epoch timestamp timelineTs appLen streamLen payloadLen)
    headerField h 3 8 = epoch.toNat ∧ headerField h 11 4 = timestamp.toNat ∧
      headerField h 15 4 = timelineTs.toNat ∧ headerField h 19 1 = appLen ∧
      headerField h 20 2 = streamLen ∧ headerField h 22 4 = payloadLen :=
  ⟨headerField_pack _ 3 rfl rfl epoch.toNat_lt, headerField_pack _ 4 rfl rfl timestamp.toNat_lt,
    headerField_pack _ 5 rfl rfl timelineTs.toNat_lt, headerField_pack _ 6 rfl rfl happ,
    headerField_pack _ 7 rfl rfl hstream, headerField_pack _ 8 rfl rfl hpayload⟩

end MediaFields

def initFields (presence : Nat) (epoch : UInt64) (keyframeTs : UInt32) (appLen streamLen : Nat) :
    List (Nat × Nat) :=
  [(1, presence), (8, epoch.toNat), (4, keyframeTs.toNat), (1, appLen), (2, streamLen)]

theorem initFields_numbers {presence appLen streamLen : Nat} (epoch : UInt64) (keyframeTs : UInt32)
    (hpresence : presence < 256 ^ 1) (happ : appLen < 256 ^ 1) (hstream : streamLen < 256 ^ 2) :
    let h := pack (initFields presence epoch keyframeTs appLen streamLen)
    headerField h 0 1 = presence ∧ headerField h 1 8 = epoch.toNat ∧
      headerField h 9 4 = keyframeTs.toNat ∧ headerField h 13 1 = appLen ∧
      headerField h 14 2 = streamLen :=
  ⟨headerField_pack _ 0 rfl rfl hpresence, headerField_pack _ 1 rfl rfl epoch.toNat_lt,
    headerField_pack _ 2 rfl rfl keyframeTs.toNat_lt, headerField_pack _ 3 rfl rfl happ,
    headerField_pack _ 4 rfl rfl hstream⟩

theorem presenceBits_eq (a b c d : Option (List UInt8)) :
    WireCodec.presenceBits [a, b, c, d] =
      a.isSome.toNat + 2 * b.isSome.toNat + 4 * c.isSome.toNat + 8 * d.isSome.toNat := by
  cases a <;> cases b <;> cases c <;> cases d <;> simp [WireCodec.presenceBits]

theorem presenceBits_lt (a b c d : Option (List UInt8)) : WireCodec.presenceBits [a, b, c, d] < 16 := by
  rw [presenceBits_eq]
  cases a.isSome <;> cases b.isSome <;> cases c.isSome <;> cases d.isSome <;> decide

theorem presenceBits_testBit (a b c d : Option (List UInt8)) :
    (WireCodec.presenceBits [a, b, c, d]).testBit 0 = a.isSome ∧
      (WireCodec.presenceBits [a, b, c, d]).testBit 1 = b.isSome ∧
      (WireCodec.presenceBits [a, b, c, d]).testBit 2 = c.isSome ∧
      (WireCodec.presenceBits [a, b, c, d]).testBit 3 = d.isSome := by
  rw [presenceBits_eq]
  cases a.isSome <;> cases b.isSome <;> cases c.isSome <;> cases d.isSome <;> decide

/-- The parts of an init cache that are there, each behind its length. -/
def partsBytes (parts : List (Option (List UInt8))) : List UInt8 :=
  parts.flatMap fun p => (p.map fun bytes => toBytes 4 bytes.length ++ bytes).getD []

def initCacheBytes (app stream : String) (epoch : UInt64) (keyframeTs : UInt32)
    (parts : List (Option (List UInt8))) : List UInt8 :=
  toBytes 4 (1 + initFixedLen + (nameBytes app).length + (nameBytes stream).length
      + (partsBytes parts).length)
    ++ ([kindInitCache] ++ (pack (initFields (WireCodec.presenceBits parts) epoch keyframeTs
      (nameBytes app).length (nameBytes stream).length)
    ++ (nameBytes app ++ (nameBytes stream ++ partsBytes parts))))

theorem length_partsBytes (parts : List (Option (List UInt8))) :
    (partsBytes parts).length =
      (parts.map fun p => (p.map fun bytes => 4 + bytes.length).getD 0).sum := by
  rw [partsBytes, length_flatMap]
  congr 1
  refine map_congr_left fun p _ => ?_
  cases p <;> simp

def MediaMessage.isBinary : MediaMessage → Bool
  | .mediaFrame .. | .initCache .. => true
  | _ => false

theorem pure_ok {α ε : Type} {x a : α} : (pure x : Except ε α) = .ok a ↔ a = x :=
  ⟨fun h => (Except.ok.inj h).symm, fun h => by rw [h]; rfl⟩

namespace WireCodec

variable (c : WireCodec)
variable {app stream : String} {bytes : List UInt8} {epoch : UInt64} {α : Type}

theorem bind_checkNames_ok {f : Unit → Except IoError α} {a : α} :
    (checkNames app stream >>= f) = .ok a ↔
      (app.utf8ByteSize ≤ maxAppLen ∧ stream.utf8ByteSize ≤ maxStreamLen) ∧ f () = .ok a := by
  rw [checkNames]
  split_ifs with h
  · exact ⟨nofun, fun h' => by omega⟩
  · exact ⟨fun h' => ⟨by omega, h'⟩, fun h' => h'.2⟩

theorem bind_frameLen_ok {len : Nat} {f : Nat → Except IoError α} {a : α} :
    (frameLen len >>= f) = .ok a ↔ len ≤ maxFrame ∧ f len = .ok a := by
  rw [frameLen]
  split_ifs with h
  · exact ⟨nofun, fun h' => absurd h'.1 (by omega)⟩
  · exact ⟨fun h' => ⟨by omega, h'⟩, fun h' => h'.2⟩

theorem writeFrameV2_mediaFrame {frameType : UInt8} {timestamp timelineTs : UInt32}
    {hint : DeliveryHint} {payload bytes : List UInt8} :
    c.writeFrameV2 (.mediaFrame app stream epoch frameType timestamp timelineTs hint payload)
        = .ok bytes ↔
      (app.utf8ByteSize ≤ maxAppLen ∧ stream.utf8ByteSize ≤ maxStreamLen) ∧
      1 + mediaFixedLen + (nameBytes app).length + (nameBytes stream).length + payload.length
        ≤ maxFrame ∧
      bytes = mediaFrameBytes (c.hintToU8 hint) frameType app stream epoch timestamp timelineTs
        payload := by
  rw [writeFrameV2, bind_checkNames_ok, bind_frameLen_ok]
  refine and_congr_right fun _ => and_congr_right fun _ => ?_
  have hflags : toBytes 1 0 = [0] := rfl
  rw [pure_ok]
  simp [mediaFrameBytes, mediaFields, pack, nameBytes, beBytes_eq, hflags]

theorem writeFrameV2_initCache {metadata avcHeader aacHeader : Option (List UInt8)}
    {keyframe : Option (UInt32 × List UInt8)} :
    c.writeFrameV2 (.initCache app stream epoch metadata avcHeader aacHeader keyframe)
        = .ok bytes ↔
      (app.utf8ByteSize ≤ maxAppLen ∧ stream.utf8ByteSize ≤ maxStreamLen) ∧
      1 + initFixedLen + (nameBytes app).length + (nameBytes stream).length
        + (partsBytes [metadata, avcHeader, aacHeader, keyframe.map snd]).length ≤ maxFrame ∧
      bytes = initCacheBytes app stream epoch ((keyframe.map fst).getD 0)
        [metadata, avcHeader, aacHeader, keyframe.map snd] := by
  rw [writeFrameV2, bind_checkNames_ok]
  dsimp only
  rw [bind_frameLen_ok, length_partsBytes]
  refine and_congr_right fun _ => and_congr_right fun _ => ?_
  have hts : (keyframe.map fun kf => kf.1.toNat).getD 0 =
      ((keyframe.map fst).getD 0).toNat := by
    cases keyframe <;> rfl
  rw [pure_ok, hts, initCacheBytes, length_partsBytes]
  simp [initFields, pack, partsBytes, nameBytes, beBytes_eq]

theorem writeFrameV2_control {msg : MediaMessage} (hmsg : msg.isBinary = false) :
    c.writeFrameV2 msg = .ok bytes ↔
      1 + (c.toJson msg).length ≤ maxControlFrame ∧
      bytes = toBytes 4 (1 + (c.toJson msg).length) ++ ([kindControl] ++ c.toJson msg) := by
  have hwrite : c.writeFrameV2 msg =
      if 1 + (c.toJson msg).length > maxControlFrame then
        .error (.other "media control frame too large")
      else frameLen (1 + (c.toJson msg).length) >>= fun len =>
        pure (beBytes 4 len ++ [kindControl] ++ c.toJson msg) := by
    cases msg with
    | mediaFrame => cases hmsg
    | initCache => cases hmsg
    | _ => simp only [writeFrameV2]; split_ifs <;> rfl
  rw [hwrite]
  split_ifs with h
  · exact ⟨nofun, fun h' => absurd h'.1 (by omega)⟩
  · rw [bind_frameLen_ok, pure_ok, append_assoc]
    have hmax : maxControlFrame ≤ maxFrame := by decide
    exact ⟨fun h' => ⟨by omega, h'.2⟩, fun h' => ⟨by omega, h'.2⟩⟩

end WireCodec

/-! ### Reading a frame -/

section ReadFrame

variable {c : WireCodec} {grant : Nat → Nat → Bool} (hgrant : ∀ reserved n, grant reserved n = true)
  {version : UInt16} {max : Nat}
variable {app stream : String} {hintByte frameType : UInt8} {payload : List UInt8}
  {hint : DeliveryHint} {msg : MediaMessage}

include hgrant

theorem consumes_readFrame (hversion : version ≥ 2) {kind : UInt8} {body : List UInt8}
    (hmax : 1 + body.length ≤ max) (hmax' : max ≤ maxFrame)
    (hcontrol : kind = kindControl → 1 + body.length ≤ maxControlFrame)
    (hbody : Consumes (c.readBodyV2 grant kind body.length) body msg) :
    Consumes (c.readFrame grant version max) (toBytes 4 (1 + body.length) ++ ([kind] ++ body))
      msg := by
  have hlen : beNat (toBytes 4 (1 + body.length)) = 1 + body.length := by
    have hsmall : 1 + body.length < 256 ^ 4 := by
      have : maxFrame < 256 ^ 4 := by decide
      omega
    rw [beNat_eq, ofBytes_toBytes, mod_eq_of_lt hsmall]
  refine (consumes_readExact (length_toBytes 4 _)).bind ?_
  dsimp only
  rw [hlen]
  refine (consumes_refuseIf _ (by omega)).bind_nil ((consumes_reserveBody hgrant 0).bind_nil ?_)
  rw [WireCodec.readBody, if_pos hversion]
  refine (consumes_refuseIf _ (by omega)).bind_nil
    ((consumes_readExactBudgeted hgrant (show [kind].length = 1 from rfl)).bind ?_)
  refine (consumes_refuseIf _ ?_).bind_nil ?_
  · rintro ⟨hkind, hlarge⟩
    have := hcontrol hkind
    omega
  · rw [Nat.add_sub_cancel_left]
    exact hbody

theorem consumes_control (hmsg : msg.isBinary = false)
    (hjson : c.fromJson (c.toJson msg) = .ok msg) (hnames : checkMessageNames msg = .ok ()) :
    Consumes (c.readBodyV2 grant kindControl (c.toJson msg).length) (c.toJson msg) msg := by
  have hparse : c.parse (c.toJson msg) = .ok msg := by
    rw [WireCodec.parse, hjson]
    rfl
  rw [WireCodec.readBodyV2, if_pos rfl]
  refine (consumes_readVec hgrant (c.toJson msg)).bind_last ((consumes_check hparse).bind_nil ?_)
  have hcheck := (consumes_check hnames).bind_nil (f := fun _ => pure msg) (consumes_pure msg)
  cases msg with
  | mediaFrame => cases hmsg
  | initCache => cases hmsg
  | _ => exact hcheck

theorem consumes_mediaFrame (epoch : UInt64) (timestamp timelineTs : UInt32)
    (hhint : c.hintFromU8 hintByte = some hint) (hknown : knownFrameType frameType)
    (happ : (nameBytes app).length ≤ maxAppLen)
    (hstream : (nameBytes stream).length ≤ maxStreamLen) (hpayload : payload.length < 256 ^ 4) :
    Consumes (c.readBodyV2 grant kindMediaFrame
        (mediaFixedLen + (nameBytes app).length + (nameBytes stream).length + payload.length))
      (pack (mediaFields hintByte frameType epoch timestamp timelineTs
        (nameBytes app).length (nameBytes stream).length payload.length)
        ++ (nameBytes app ++ (nameBytes stream ++ payload)))
      (.mediaFrame app stream epoch frameType timestamp timelineTs hint payload) := by
  have happ' : (nameBytes app).length < 256 ^ 1 := by
    rw [maxAppLen] at happ
    omega
  have hstream' : (nameBytes stream).length < 256 ^ 2 := by
    rw [maxStreamLen] at hstream
    omega
  obtain ⟨rest, hbytes⟩ := mediaFields_bytes hintByte frameType epoch timestamp timelineTs
    (nameBytes app).length (nameBytes stream).length payload.length
  obtain ⟨hepoch, hts, htl, happLen, hstreamLen, hpayloadLen⟩ := mediaFields_numbers hintByte
    frameType epoch timestamp timelineTs happ' hstream' hpayload
  have hwidth := length_pack (mediaFields hintByte frameType epoch timestamp timelineTs
    (nameBytes app).length (nameBytes stream).length payload.length)
  generalize pack (mediaFields hintByte frameType epoch timestamp timelineTs
    (nameBytes app).length (nameBytes stream).length payload.length) = h at *
  have hlen : h.length = mediaFixedLen := hwidth
  rw [WireCodec.readBodyV2, if_neg (by decide), if_pos rfl, WireCodec.readMediaFrameV2]
  refine (consumes_refuseIf _ (by omega)).bind_nil
    ((consumes_readExactBudgeted hgrant hlen).bind ?_)
  have hhint' : c.hintFromU8 (h.getD 0 0) = some hint := by
    rw [hbytes]
    exact hhint
  have htype : h.getD 1 0 = frameType := by
    rw [hbytes]
    rfl
  have hflags : h.getD 2 0 = 0 := by
    rw [hbytes]
    rfl
  rw [hhint']
  dsimp only
  rw [htype, hepoch, hts, htl, happLen, hstreamLen, hpayloadLen, UInt64.ofNat_toNat,
    UInt32.ofNat_toNat, UInt32.ofNat_toNat]
  refine (consumes_refuseIf _ (by simp [hknown])).bind_nil
    ((consumes_refuseIf _ (not_not.2 hflags)).bind_nil
    ((consumes_refuseIf _ (by omega)).bind_nil ((consumes_refuseIf _ (by simp)).bind_nil ?_)))
  refine (consumes_readString hgrant app).bind ((consumes_readString hgrant stream).bind ?_)
  exact (consumes_readVec hgrant payload).bind_last (consumes_pure _)

theorem consumes_readParts (presence : Nat) (l : List (Nat × Option (List UInt8))) {remaining : Nat}
    (hbits : ∀ p ∈ l, presence.testBit p.1 = p.2.isSome)
    (hsize : (partsBytes (l.map snd)).length ≤ remaining) (hremaining : remaining < 256 ^ 4) :
    Consumes (readParts grant presence (l.map fst) remaining) (partsBytes (l.map snd))
      (l.map snd, remaining - (partsBytes (l.map snd)).length) := by
  induction l generalizing remaining with
  | nil => exact consumes_pure _
  | cons p l ih =>
    obtain ⟨i, part⟩ := p
    have hbit : presence.testBit i = part.isSome := hbits (i, part) mem_cons_self
    have hbits' : ∀ p ∈ l, presence.testBit p.1 = p.2.isSome := fun p hp =>
      hbits p (mem_cons_of_mem _ hp)
    rw [map_cons, map_cons, readParts]
    cases part with
    | none =>
      rw [if_neg (by simp [hbit])]
      have hsame : partsBytes (none :: l.map snd) = partsBytes (l.map snd) := by
        simp [partsBytes]
      rw [hsame]
      rw [map_cons, hsame] at hsize
      exact (ih hbits' hsize hremaining).bind_last (consumes_pure _)
    | some bytes =>
      rw [if_pos (by simp [hbit])]
      have hcons : partsBytes (some bytes :: l.map snd) =
          toBytes 4 bytes.length ++ (bytes ++ partsBytes (l.map snd)) := by
        simp [partsBytes]
      rw [map_cons, hcons] at hsize
      simp only [length_append, length_toBytes] at hsize
      rw [hcons]
      have hlen : beNat (toBytes 4 bytes.length) = bytes.length := by
        rw [beNat_eq, ofBytes_toBytes, mod_eq_of_lt (by omega)]
      refine (consumes_refuseIf _ (by omega)).bind_nil
        ((consumes_readExactBudgeted hgrant (length_toBytes 4 bytes.length)).bind ?_)
      rw [hlen]
      refine (consumes_refuseIf _ (by omega)).bind_nil ((consumes_readVec hgrant bytes).bind ?_)
      have hrest := @ih (remaining - 4 - bytes.length) hbits' (by omega) (by omega)
      have hleft : remaining - 4 - bytes.length - (partsBytes (l.map snd)).length =
          remaining - (toBytes 4 bytes.length ++ (bytes ++ partsBytes (l.map snd))).length := by
        simp only [length_append, length_toBytes]
        omega
      rw [hleft] at hrest
      exact hrest.bind_last (consumes_pure _)

theorem consumes_initCache (epoch : UInt64) (keyframeTs : UInt32)
    (metadata avcHeader aacHeader keyframe : Option (List UInt8))
    (happ : (nameBytes app).length ≤ maxAppLen) (hstream : (nameBytes stream).length ≤ maxStreamLen)
    (hparts : (partsBytes [metadata, avcHeader, aacHeader, keyframe]).length < 256 ^ 4) :
    Consumes (c.readBodyV2 grant kindInitCache
        (initFixedLen + (nameBytes app).length + (nameBytes stream).length
          + (partsBytes [metadata, avcHeader, aacHeader, keyframe]).length))
      (pack (initFields (WireCodec.presenceBits [metadata, avcHeader, aacHeader, keyframe]) epoch
          keyframeTs (nameBytes app).length (nameBytes stream).length)
        ++ (nameBytes app ++ (nameBytes stream
          ++ partsBytes [metadata, avcHeader, aacHeader, keyframe])))
      (.initCache app stream epoch metadata avcHeader aacHeader
        (keyframe.map fun p => (keyframeTs, p))) := by
  set presence := WireCodec.presenceBits [metadata, avcHeader, aacHeader, keyframe] with hpresence
  have happ' : (nameBytes app).length < 256 ^ 1 := by
    rw [maxAppLen] at happ
    omega
  have hstream' : (nameBytes stream).length < 256 ^ 2 := by
    rw [maxStreamLen] at hstream
    omega
  have hpresence16 : presence < 16 := presenceBits_lt _ _ _ _
  obtain ⟨hpres, hepoch, hts, happLen, hstreamLen⟩ :=
    initFields_numbers epoch keyframeTs (show presence < 256 ^ 1 by omega) happ' hstream'
  have hwidth := length_pack (initFields presence epoch keyframeTs (nameBytes app).length
    (nameBytes stream).length)
  generalize pack (initFields presence epoch keyframeTs (nameBytes app).length
    (nameBytes stream).length) = h at *
  have hlen : h.length = initFixedLen := hwidth
  rw [WireCodec.readBodyV2, if_neg (by decide), if_neg (by decide), if_pos rfl,
    WireCodec.readInitCacheV2]
  refine (consumes_refuseIf _ (by omega)).bind_nil
    ((consumes_readExactBudgeted hgrant hlen).bind ?_)
  dsimp only
  rw [hpres, hepoch, hts, happLen, hstreamLen, UInt64.ofNat_toNat, UInt32.ofNat_toNat]
  refine (consumes_refuseIf _ (by omega)).bind_nil ((consumes_refuseIf _ (by omega)).bind_nil
    ((consumes_refuseIf _ (by omega)).bind_nil ?_))
  refine (consumes_readString hgrant app).bind ((consumes_readString hgrant stream).bind ?_)
  have hrest : initFixedLen + (nameBytes app).length + (nameBytes stream).length
      + (partsBytes [metadata, avcHeader, aacHeader, keyframe]).length - initFixedLen
      - ((nameBytes app).length + (nameBytes stream).length) =
      (partsBytes [metadata, avcHeader, aacHeader, keyframe]).length := by omega
  rw [hrest]
  have hread := consumes_readParts hgrant presence
    [(0, metadata), (1, avcHeader), (2, aacHeader), (3, keyframe)]
    (by simpa using presenceBits_testBit metadata avcHeader aacHeader keyframe) le_rfl hparts
  refine hread.bind_last ?_
  dsimp only
  refine (consumes_refuseIf _ (by simp)).bind_nil ?_
  exact consumes_pure _

theorem consumes_mediaFrameBytes (epoch : UInt64) (timestamp timelineTs : UInt32)
    (hhint : c.hintFromU8 hintByte = some hint) (hknown : knownFrameType frameType)
    (happ : (nameBytes app).length ≤ maxAppLen) (hstream : (nameBytes stream).length ≤ maxStreamLen)
    (hsize : 1 + mediaFixedLen + (nameBytes app).length + (nameBytes stream).length + payload.length
      ≤ maxFrame) :
    Consumes (c.readFrame grant 2 maxFrame)
      (mediaFrameBytes hintByte frameType app stream epoch timestamp timelineTs payload)
      (.mediaFrame app stream epoch frameType timestamp timelineTs hint payload) := by
  have hword : maxFrame < 256 ^ 4 := by decide
  have hbody := consumes_mediaFrame hgrant epoch timestamp timelineTs hhint hknown happ hstream
    (show payload.length < 256 ^ 4 by omega)
  have hlen : (pack (mediaFields hintByte frameType epoch timestamp timelineTs (nameBytes app).length
      (nameBytes stream).length payload.length) ++ (nameBytes app ++ (nameBytes stream ++ payload))).length
      = mediaFixedLen + (nameBytes app).length + (nameBytes stream).length + payload.length := by
    simp only [length_append, length_pack]
    show mediaFixedLen + _ = _
    omega
  rw [← hlen] at hbody
  have hframe := consumes_readFrame hgrant (show (2 : UInt16) ≥ 2 by decide)
    (show 1 + _ ≤ maxFrame by omega) le_rfl (fun h => absurd h (by decide)) hbody
  rw [hlen, ← add_assoc, ← add_assoc, ← add_assoc] at hframe
  exact hframe

theorem consumes_initCacheBytes (epoch : UInt64) (keyframeTs : UInt32)
    (metadata avcHeader aacHeader keyframe : Option (List UInt8))
    (happ : (nameBytes app).length ≤ maxAppLen) (hstream : (nameBytes stream).length ≤ maxStreamLen)
    (hsize : 1 + initFixedLen + (nameBytes app).length + (nameBytes stream).length
      + (partsBytes [metadata, avcHeader, aacHeader, keyframe]).length ≤ maxFrame) :
    Consumes (c.readFrame grant 2 maxFrame)
      (initCacheBytes app stream epoch keyframeTs [metadata, avcHeader, aacHeader, keyframe])
      (.initCache app stream epoch metadata avcHeader aacHeader
        (keyframe.map fun p => (keyframeTs, p))) := by
  have hword : maxFrame < 256 ^ 4 := by decide
  have hbody := consumes_initCache (c := c) hgrant epoch keyframeTs metadata avcHeader aacHeader
    keyframe happ hstream (by omega)
  rw [initCacheBytes]
  generalize [metadata, avcHeader, aacHeader, keyframe] = parts at *
  have hlen : (pack (initFields (WireCodec.presenceBits parts) epoch keyframeTs
      (nameBytes app).length (nameBytes stream).length)
      ++ (nameBytes app ++ (nameBytes stream ++ partsBytes parts))).length
      = initFixedLen + (nameBytes app).length + (nameBytes stream).length
        + (partsBytes parts).length := by
    simp only [length_append, length_pack]
    show initFixedLen + _ = _
    omega
  rw [← hlen] at hbody
  have hframe := consumes_readFrame hgrant (show (2 : UInt16) ≥ 2 by decide)
    (show 1 + _ ≤ maxFrame by omega) le_rfl (fun h => absurd h (by decide)) hbody
  rw [hlen, ← add_assoc, ← add_assoc, ← add_assoc] at hframe
  exact hframe

end ReadFrame

/-! ### Sequences of frames -/

/-- librtmp2 knows the type of the frame. -/
def MediaMessage.typeKnown : MediaMessage → Bool
  | .mediaFrame _ _ _ frameType _ _ _ _ => knownFrameType frameType
  | _ => true

namespace WireCodec

variable {c : WireCodec} {grant : Nat → Nat → Bool}

/-- `read_frame` again and again. The guard of a frame is dropped when the frame was read, so the next
one starts with nothing reserved. -/
def readFrames (c : WireCodec) (grant : Nat → Nat → Bool) (version : UInt16) (max : Nat) :
    Nat → Read (List MediaMessage)
  | 0 => pure []
  | n + 1 => do
    let msg ← fun s => c.readFrame grant version max { s with reserved := 0 }
    let msgs ← c.readFrames grant version max n
    return msg :: msgs

theorem consumes_written (hgrant : ∀ reserved n, grant reserved n)
    (hhint : ∀ hint, c.hintFromU8 (c.hintToU8 hint) = some hint) {msg : MediaMessage}
    {frame : List UInt8} (hwrite : c.writeFrameV2 msg = .ok frame)
    (hjson : msg.isBinary = false → c.fromJson (c.toJson msg) = .ok msg)
    (hnames : checkMessageNames msg = .ok ()) (htype : msg.typeKnown) :
    Consumes (c.readFrame grant 2 maxFrame) frame msg := by
  cases hbinary : msg.isBinary with
  | false =>
    obtain ⟨hsize, rfl⟩ := (c.writeFrameV2_control hbinary).1 hwrite
    have hmax : maxControlFrame ≤ maxFrame := by decide
    exact consumes_readFrame hgrant (by decide) (by omega) le_rfl (fun _ => hsize)
      (consumes_control hgrant hbinary (hjson hbinary) hnames)
  | true =>
    cases msg with
    | mediaFrame app stream epoch frameType timestamp timelineTs hint payload =>
      obtain ⟨⟨happ, hstream⟩, hsize, rfl⟩ := c.writeFrameV2_mediaFrame.1 hwrite
      exact consumes_mediaFrameBytes hgrant epoch timestamp timelineTs (hhint hint) htype happ hstream
        hsize
    | initCache app stream epoch metadata avcHeader aacHeader keyframe =>
      obtain ⟨⟨happ, hstream⟩, hsize, rfl⟩ := c.writeFrameV2_initCache.1 hwrite
      have hread := consumes_initCacheBytes (c := c) hgrant epoch ((keyframe.map fst).getD 0)
        metadata avcHeader aacHeader (keyframe.map snd) happ hstream hsize
      have hkeyframe : ((keyframe.map snd).map fun p =>
          ((keyframe.map fst).getD 0, p)) = keyframe := by
        cases keyframe <;> rfl
      rwa [hkeyframe] at hread
    | _ => cases hbinary

/-- **What is written is read back**: the frames of a sequence of messages, followed by any bytes,
are read as the same messages, and what follows is left. -/
theorem read_frames_written (c : WireCodec) (grant : Nat → Nat → Bool)
    (hgrant : ∀ reserved n, grant reserved n = true)
    (hhint : ∀ hint, c.hintFromU8 (c.hintToU8 hint) = some hint)
    (msgs : List MediaMessage) (frames : List (List UInt8))
    (hwrite : List.Forall₂ (fun msg frame => c.writeFrameV2 msg = .ok frame) msgs frames)
    (hjson : ∀ msg ∈ msgs, msg.isBinary = false → c.fromJson (c.toJson msg) = .ok msg)
    (hnames : ∀ msg ∈ msgs, checkMessageNames msg = .ok ())
    (htypes : ∀ msg ∈ msgs, msg.typeKnown = true)
    (rest : List UInt8) (atEnd : IoError) (reserved : Nat) :
    ∃ reserved', c.readFrames grant 2 maxFrame msgs.length
      ⟨frames.flatten ++ rest, atEnd, reserved⟩ = .ok (msgs, ⟨rest, atEnd, reserved'⟩) := by
  suffices h : Consumes (c.readFrames grant 2 maxFrame msgs.length) frames.flatten msgs from
    h rest atEnd reserved
  induction hwrite with
  | nil => exact consumes_pure []
  | @cons msg frame msgs frames hmsg _ ih =>
    have hfirst : Consumes (fun s => c.readFrame grant 2 maxFrame { s with reserved := 0 }) frame
        msg := by
      intro rest atEnd reserved
      exact consumes_written hgrant hhint hmsg (hjson msg mem_cons_self)
        (hnames msg mem_cons_self) (htypes msg mem_cons_self) rest atEnd 0
    have hrest := ih (fun m hm => hjson m (mem_cons_of_mem _ hm))
      (fun m hm => hnames m (mem_cons_of_mem _ hm))
      fun m hm => htypes m (mem_cons_of_mem _ hm)
    rw [flatten_cons]
    exact hfirst.bind (hrest.bind_last (consumes_pure _))

/-- A codec that knows one control message, and numbers the delivery hints. -/
def sample : WireCodec :=
  { authOkCodec with
    hintToU8 := fun
      | .critical => 0
      | .resyncPoint => 1
      | .droppable => 2
    hintFromU8 := fun b =>
      if b = 0 then some .critical else if b = 1 then some .resyncPoint
      else if b = 2 then some .droppable else none }

theorem hintFromU8_sample (hint : DeliveryHint) :
    sample.hintFromU8 (sample.hintToU8 hint) = some hint := by
  cases hint <;> rfl

/-- One message of each layout; the cache has a keyframe and no sequence headers. -/
def sampleMessages : List MediaMessage :=
  [.authOk, .mediaFrame "live" "cam" 7 1 40 40 .resyncPoint [0x17, 0x01],
    .initCache "live" "cam" 7 (some []) none none (some (40, [0x17, 0x01]))]

theorem read_frames_written_sample :
    ∃ frames, List.Forall₂ (fun msg frame => sample.writeFrameV2 msg = .ok frame) sampleMessages
      frames ∧
      ∃ reserved', sample.readFrames (fun _ _ => true) 2 maxFrame 3
        ⟨frames.flatten ++ [0xFF], .other "closed", 0⟩
          = .ok (sampleMessages, ⟨[0xFF], .other "closed", reserved'⟩) := by
  have hwrite : List.Forall₂ (fun msg frame => sample.writeFrameV2 msg = .ok frame) sampleMessages
      [_, _, _] :=
    .cons ((writeFrameV2_control _ rfl).2 ⟨by decide, rfl⟩)
      (.cons ((writeFrameV2_mediaFrame sample).2 ⟨by decide, by decide, rfl⟩)
        (.cons ((writeFrameV2_initCache sample).2 ⟨by decide, by decide, rfl⟩) .nil))
  refine ⟨_, hwrite, ?_⟩
  refine read_frames_written sample (fun _ _ => true) (fun _ _ => rfl) hintFromU8_sample _ _ hwrite
    ?_ (by decide) (by decide) [0xFF] (.other "closed") 0
  intro msg hmem hbinary
  simp only [sampleMessages, mem_cons, not_mem_nil, or_false] at hmem
  obtain rfl | rfl | rfl := hmem
  · rfl
  · cases hbinary
  · cases hbinary

/-- **Either version reads what it writes**, and takes nothing of what follows. -/
theorem read_frame_written (hgrant : ∀ reserved n, grant reserved n)
    (hhint : ∀ hint, c.hintFromU8 (c.hintToU8 hint) = some hint) (version : UInt16)
    (msg : MediaMessage) (frame : List UInt8) (hwrite : c.writeFrame msg version = .ok frame)
    (hjson : c.fromJson (c.toJson msg) = .ok msg) (hnames : checkMessageNames msg = .ok ())
    (htype : msg.typeKnown) : Consumes (c.readFrame grant version maxFrame) frame msg := by
  unfold writeFrame at hwrite
  split_ifs at hwrite with hversion
  · have hsame : c.readFrame grant version maxFrame = c.readFrame grant 2 maxFrame := by
      simp [readFrame, readBody, hversion]
    rw [hsame]
    exact consumes_written hgrant hhint hwrite (fun _ => hjson) hnames htype
  · dsimp only [writeFrameV1] at hwrite
    split_ifs at hwrite with hsize
    cases hwrite
    have hlen : beNat (beBytes 4 (c.toJson msg).length) = (c.toJson msg).length :=
      (Lib.BigEndian.ofBytes_toBytes 4 _).trans (mod_eq_of_lt (by rw [maxFrame] at hsize; omega))
    refine (consumes_readExact (by simp [beBytes])).bind ?_
    rw [hlen]
    refine (consumes_refuseIf _ hsize).bind_nil ((consumes_reserveBody hgrant 0).bind_nil ?_)
    rw [readBody, if_neg hversion]
    have hparse : c.parse (c.toJson msg) = .ok msg := by rw [parse, hjson]; rfl
    exact (consumes_readVec hgrant _).bind_last ((consumes_check hparse).bind_nil
      ((consumes_check hnames).bind_nil (consumes_pure msg)))

theorem read_frame_written_v1 : Consumes (sample.readFrame (fun _ _ => true) 1 maxFrame)
    (beBytes 4 8 ++ authOkJson) .authOk :=
  read_frame_written (fun _ _ => rfl) hintFromU8_sample 1 .authOk _ rfl rfl rfl rfl

end WireCodec

end RtmpServer
