import RtmpServer.Media.WireRoundTrip

/-!
# The spellings of a media message

The converse of the round trip: what the reader of version 2 takes for a media frame or an init
cache is the frame that `write_frame_v2` gives for the message, except that the timestamp of the
keyframe is read also where the presence bits say that there is no keyframe, and is dropped then.
-/

namespace RtmpServer

open List Lib.BigEndian

/-! ### What an accepted input started with -/

section Took

variable {grant : Nat → Nat → Bool} {s s' : Source} {n : Nat}

theorem took_of_take_drop {bytes : List UInt8}
    (h : n ≤ s.input.length ∧ bytes = s.input.take n ∧ s'.input = s.input.drop n) :
    bytes.length = n ∧ s.input = bytes ++ s'.input := by
  obtain ⟨hle, rfl, hin⟩ := h
  rw [hin, take_append_drop, length_take]
  exact ⟨Nat.min_eq_left hle, rfl⟩

theorem refuseIf_bind_ok {α : Type} {p : Prop} [Decidable p] {e : IoError} {f : Unit → Read α}
    {a : α} : (refuseIf p e >>= f) s = .ok (a, s') ↔ ¬ p ∧ f () s = .ok (a, s') := by
  rw [read_bind_ok]
  constructor
  · rintro ⟨_, t, hp, h⟩
    obtain ⟨hnot, rfl⟩ := refuseIf_ok.1 hp
    exact ⟨hnot, h⟩
  · rintro ⟨hp, h⟩
    exact ⟨(), s, refuseIf_ok.2 ⟨hp, rfl⟩, h⟩

theorem readString_took {name : String} (h : readString grant n s = .ok (name, s')) :
    (nameBytes name).length = n ∧ s.input = nameBytes name ++ s'.input := by
  obtain ⟨buf, t, hbuf, h⟩ := read_bind_ok.1 h
  have htook := took_of_take_drop (readVec_ok hbuf)
  cases hname : String.fromUTF8? ⟨buf.toArray⟩ with
  | none =>
    rw [hname] at h
    cases h
  | some name' =>
    rw [hname] at h
    cases h
    rw [nameBytes_of_fromUTF8? hname]
    exact htook

theorem toBytes_beNat {bytes : List UInt8} (h : bytes.length = n) : toBytes n (beNat bytes) = bytes := by
  rw [beNat_eq, ← h, toBytes_ofBytes]

theorem readParts_took {presence remaining left : Nat} {is : List Nat}
    {parts : List (Option (List UInt8))}
    (h : readParts grant presence is remaining s = .ok ((parts, left), s')) :
    parts.map Option.isSome = is.map presence.testBit ∧
      s.input = partsBytes parts ++ s'.input ∧ remaining = (partsBytes parts).length + left := by
  induction is generalizing s remaining parts left with
  | nil =>
    cases h
    exact ⟨rfl, rfl, by simp [partsBytes]⟩
  | cons i is ih =>
    rw [readParts] at h
    by_cases hbit : presence.testBit i = true
    · rw [if_pos hbit] at h
      obtain ⟨hroom, h⟩ := refuseIf_bind_ok.1 h
      obtain ⟨lenBytes, s₁, hlenBytes, h⟩ := read_bind_ok.1 h
      obtain ⟨hfour, hin⟩ := took_of_take_drop (readExactBudgeted_ok hlenBytes)
      obtain ⟨hfits, h⟩ := refuseIf_bind_ok.1 h
      obtain ⟨buf, s₂, hbuf, h⟩ := read_bind_ok.1 h
      obtain ⟨hlen, hin'⟩ := took_of_take_drop (readVec_ok hbuf)
      obtain ⟨⟨rest, left'⟩, s₃, hrest, h⟩ := read_bind_ok.1 h
      cases h
      obtain ⟨hbits, hin'', hleft⟩ := ih hrest
      have hcons : partsBytes (some buf :: rest) = lenBytes ++ (buf ++ partsBytes rest) := by
        have hlenBytes := toBytes_beNat hfour
        rw [← hlen] at hlenBytes
        simp [partsBytes, hlenBytes]
      refine ⟨by simp [hbits, hbit], ?_, ?_⟩
      · rw [hin, hin', hin'', hcons]
        simp
      · rw [hcons, length_append, length_append]
        omega
    · rw [if_neg hbit] at h
      obtain ⟨⟨rest, left'⟩, s₁, hrest, h⟩ := read_bind_ok.1 h
      cases h
      obtain ⟨hbits, hin, hleft⟩ := ih hrest
      have hcons : partsBytes (none :: rest) = partsBytes rest := by simp [partsBytes]
      rw [hcons]
      exact ⟨by simp [hbits, hbit], hin, hleft⟩

end Took

/-! ### Headers -/

theorem toNat_ofNat_field64 (h : List UInt8) (start : Nat) :
    (UInt64.ofNat (field h start 8)).toNat = field h start 8 :=
  UInt64.toNat_ofNat_of_lt (field_lt h start 8)

theorem toNat_ofNat_field32 (h : List UInt8) (start : Nat) :
    (UInt32.ofNat (field h start 4)).toNat = field h start 4 :=
  UInt32.toNat_ofNat_of_lt (field_lt h start 4)

theorem pack_mediaFields {h : List UInt8} (hlen : h.length = mediaFixedLen)
    (hflags : h.getD 2 0 = 0) :
    pack (mediaFields (h.getD 0 0) (h.getD 1 0) (.ofNat (headerField h 3 8))
      (.ofNat (headerField h 11 4)) (.ofNat (headerField h 15 4)) (headerField h 19 1)
      (headerField h 20 2) (headerField h 22 4)) = h := by
  have hfields := pack_unpack [1, 1, 1, 8, 4, 4, 1, 2, 4] 0 h hlen
  have hlt : ∀ i < 3, i < h.length := fun i hi => by
    rw [hlen, mediaFixedLen]
    omega
  simp only [unpack, Nat.zero_add, Nat.reduceAdd, field_one (hlt 0 (by decide)),
    field_one (hlt 1 (by decide)), field_one (hlt 2 (by decide)), hflags] at hfields
  rw [mediaFields, headerField_eq, toNat_ofNat_field64, toNat_ofNat_field32, toNat_ofNat_field32]
  exact hfields

theorem pack_initFields {h : List UInt8} (hlen : h.length = initFixedLen) :
    pack (initFields (headerField h 0 1) (.ofNat (headerField h 1 8)) (.ofNat (headerField h 9 4))
      (headerField h 13 1) (headerField h 14 2)) = h := by
  have hfields := pack_unpack [1, 8, 4, 1, 2] 0 h hlen
  rw [initFields, headerField_eq, toNat_ofNat_field64, toNat_ofNat_field32]
  exact hfields

theorem presenceBits_of_testBit {presence : Nat} (hpresence : presence < 16)
    {a b c d : Option (List UInt8)}
    (hbits : [a, b, c, d].map Option.isSome = [0, 1, 2, 3].map presence.testBit) :
    WireCodec.presenceBits [a, b, c, d] = presence := by
  simp only [map_cons, map_nil, cons.injEq, and_true] at hbits
  obtain ⟨ha, hb, hc, hd⟩ := hbits
  have hsum : ∀ p : Nat, p < 16 →
      (p.testBit 0).toNat + 2 * (p.testBit 1).toNat + 4 * (p.testBit 2).toNat
        + 8 * (p.testBit 3).toNat = p := by decide
  rw [presenceBits_eq, ha, hb, hc, hd, hsum presence hpresence]

/-! ### Frames -/

/-- An init cache without a keyframe in which the timestamp of the keyframe is set. -/
def strayKeyframeTs (frame : List UInt8) : Bool :=
  frame.getD 4 0 = kindInitCache ∧ (headerField frame 5 1).testBit 3 = false ∧
    headerField frame 14 4 ≠ 0

theorem headerField_initCacheBytes (app stream : String) (epoch : UInt64) (keyframeTs : UInt32)
    (parts : List (Option (List UInt8))) (start len : Nat) (h : start + len ≤ initFixedLen) :
    headerField (initCacheBytes app stream epoch keyframeTs parts) (5 + start) len =
      headerField (pack (initFields (WireCodec.presenceBits parts) epoch keyframeTs
        (nameBytes app).length (nameBytes stream).length)) start len := by
  have hhead : ∀ n, (toBytes 4 n ++ [kindInitCache]).length = 5 := fun n => by simp
  rw [headerField_eq, initCacheBytes, ← append_assoc, ← hhead, field_append_right,
    field_append_left]
  rw [length_pack]
  exact h

theorem strayKeyframeTs_initCacheBytes {app stream : String} (epoch : UInt64) (keyframeTs : UInt32)
    (a b c d : Option (List UInt8)) (happ : (nameBytes app).length ≤ maxAppLen)
    (hstream : (nameBytes stream).length ≤ maxStreamLen) :
    strayKeyframeTs (initCacheBytes app stream epoch keyframeTs [a, b, c, d]) ↔
      d = none ∧ keyframeTs ≠ 0 := by
  rw [maxAppLen] at happ
  rw [maxStreamLen] at hstream
  have hpresence := presenceBits_lt a b c d
  obtain ⟨hpres, -, hts, -, -⟩ := initFields_numbers epoch keyframeTs
    (show WireCodec.presenceBits [a, b, c, d] < 256 ^ 1 by omega)
    (show (nameBytes app).length < 256 ^ 1 by omega)
    (show (nameBytes stream).length < 256 ^ 2 by omega)
  have hkind : (initCacheBytes app stream epoch keyframeTs [a, b, c, d]).getD 4 0
      = kindInitCache := by
    rw [initCacheBytes, getD_append_right _ _ _ _ (by simp)]
    simp
  rw [strayKeyframeTs, decide_eq_true_iff, hkind,
    headerField_initCacheBytes _ _ _ _ _ 0 1 (by decide),
    headerField_initCacheBytes _ _ _ _ _ 9 4 (by decide), hpres, hts,
    (presenceBits_testBit a b c d).2.2.2]
  simp [← UInt32.toNat_inj]

theorem writeFrameV2_initCache_iff {c : WireCodec} {app stream : String} (epoch : UInt64)
    (keyframeTs : UInt32) (metadata avcHeader aacHeader keyframe : Option (List UInt8))
    (happ : (nameBytes app).length ≤ maxAppLen) (hstream : (nameBytes stream).length ≤ maxStreamLen)
    (hsize : 1 + initFixedLen + (nameBytes app).length + (nameBytes stream).length
      + (partsBytes [metadata, avcHeader, aacHeader, keyframe]).length ≤ maxFrame) :
    c.writeFrameV2 (.initCache app stream epoch metadata avcHeader aacHeader
        (keyframe.map fun p => (keyframeTs, p)))
        = .ok (initCacheBytes app stream epoch keyframeTs
          [metadata, avcHeader, aacHeader, keyframe]) ↔
      strayKeyframeTs (initCacheBytes app stream epoch keyframeTs
        [metadata, avcHeader, aacHeader, keyframe]) = false := by
  have hstray := fun ts => strayKeyframeTs_initCacheBytes epoch ts metadata avcHeader aacHeader
    keyframe happ hstream
  cases keyframe with
  | some p =>
    rw [Bool.eq_false_iff, ne_eq, hstray]
    constructor
    · rintro - ⟨hnone, -⟩
      cases hnone
    · intro _
      exact c.writeFrameV2_initCache.2 ⟨⟨happ, hstream⟩, hsize, rfl⟩
  | none =>
    constructor
    · intro h
      have hzero := (c.writeFrameV2_initCache.1 h).2.2
      rw [hzero, Bool.eq_false_iff, ne_eq]
      exact fun h' => ((hstray 0).1 h').2 rfl
    · intro h
      obtain rfl : keyframeTs = 0 := by
        by_contra hts
        rw [(hstray keyframeTs).2 ⟨rfl, hts⟩] at h
        cases h
      exact c.writeFrameV2_initCache.2 ⟨⟨happ, hstream⟩, hsize, rfl⟩

section Rewritten

variable {c : WireCodec} (hhint : ∀ b hint, c.hintFromU8 b = some hint → c.hintToU8 hint = b)
  {grant : Nat → Nat → Bool} {s s' : Source} {msg : MediaMessage} {rest : Nat}

include hhint in
theorem readMediaFrameV2_took (h : c.readMediaFrameV2 grant rest s = .ok (msg, s'))
    (hsize : 1 + rest ≤ maxFrame) :
    ∃ body, s.input = body ++ s'.input ∧
      c.writeFrameV2 msg = .ok (toBytes 4 (1 + rest) ++ ([kindMediaFrame] ++ body)) := by
  obtain ⟨-, h⟩ := refuseIf_bind_ok.1 h
  obtain ⟨hd, s₁, hhead, h⟩ := read_bind_ok.1 h
  obtain ⟨hlen, hin⟩ := took_of_take_drop (readExactBudgeted_ok hhead)
  cases hcode : c.hintFromU8 (hd.getD 0 0) with
  | none =>
    rw [hcode] at h
    cases h
  | some hint =>
    rw [hcode] at h
    obtain ⟨-, h⟩ := refuseIf_bind_ok.1 h
    obtain ⟨hflags, h⟩ := refuseIf_bind_ok.1 h
    obtain ⟨hstreamMax, h⟩ := refuseIf_bind_ok.1 h
    obtain ⟨hrest, h⟩ := refuseIf_bind_ok.1 h
    obtain ⟨app, s₂, happ, h⟩ := read_bind_ok.1 h
    obtain ⟨stream, s₃, hstream, h⟩ := read_bind_ok.1 h
    obtain ⟨payload, s₄, hpayload, h⟩ := read_bind_ok.1 h
    cases h
    obtain ⟨happLen, happIn⟩ := readString_took happ
    obtain ⟨hstreamLen, hstreamIn⟩ := readString_took hstream
    obtain ⟨hpayloadLen, hpayloadIn⟩ := took_of_take_drop (readVec_ok hpayload)
    have happMax : headerField hd 19 1 < 256 ^ 1 := field_lt hd 19 1
    refine ⟨hd ++ (nameBytes app ++ (nameBytes stream ++ payload)), ?_, ?_⟩
    · rw [hin, happIn, hstreamIn, hpayloadIn]
      simp
    · have hpack := pack_mediaFields hlen (not_not.1 hflags)
      rw [← happLen, ← hstreamLen, ← hpayloadLen] at hpack hrest
      rw [← happLen] at happMax
      rw [← hstreamLen] at hstreamMax
      have htotal : 1 + rest = 1 + mediaFixedLen + (nameBytes app).length
          + (nameBytes stream).length + payload.length := by omega
      refine (c.writeFrameV2_mediaFrame).2 ⟨⟨?_, ?_⟩, htotal ▸ hsize, ?_⟩
      · rw [← length_nameBytes, maxAppLen]
        omega
      · rw [← length_nameBytes]
        omega
      · rw [mediaFrameBytes, hhint _ _ hcode, hpack, htotal]

theorem readInitCacheV2_took (h : WireCodec.readInitCacheV2 grant rest s = .ok (msg, s'))
    (hsize : 1 + rest ≤ maxFrame) :
    ∃ body, s.input = body ++ s'.input ∧
      (c.writeFrameV2 msg = .ok (toBytes 4 (1 + rest) ++ ([kindInitCache] ++ body)) ↔
        strayKeyframeTs (toBytes 4 (1 + rest) ++ ([kindInitCache] ++ body)) = false) := by
  obtain ⟨hfixed, h⟩ := refuseIf_bind_ok.1 h
  obtain ⟨hd, s₁, hhead, h⟩ := read_bind_ok.1 h
  obtain ⟨hlen, hin⟩ := took_of_take_drop (readExactBudgeted_ok hhead)
  obtain ⟨hpresence, h⟩ := refuseIf_bind_ok.1 h
  obtain ⟨hstreamMax, h⟩ := refuseIf_bind_ok.1 h
  obtain ⟨hnames, h⟩ := refuseIf_bind_ok.1 h
  obtain ⟨app, s₂, happ, h⟩ := read_bind_ok.1 h
  obtain ⟨stream, s₃, hstream, h⟩ := read_bind_ok.1 h
  obtain ⟨⟨parts, left⟩, s₄, hparts, h⟩ := read_bind_ok.1 h
  obtain ⟨hleft, h⟩ := refuseIf_bind_ok.1 h
  cases h
  obtain ⟨happLen, happIn⟩ := readString_took happ
  obtain ⟨hstreamLen, hstreamIn⟩ := readString_took hstream
  obtain ⟨hbits, hpartsIn, hpartsLen⟩ := readParts_took hparts
  have happMax : headerField hd 13 1 < 256 ^ 1 := field_lt hd 13 1
  -- four bits, so four parts
  have hfour : parts.length = 4 := by
    have := congrArg length hbits
    rwa [length_map] at this
  obtain ⟨a, b, c', d, rfl⟩ := length_eq_four.1 hfour
  have hpack := pack_initFields hlen
  rw [← presenceBits_of_testBit (not_le.1 hpresence) hbits, ← happLen, ← hstreamLen] at hpack
  rw [← happLen, ← hstreamLen] at hnames hpartsLen
  rw [← happLen] at happMax
  rw [← hstreamLen] at hstreamMax
  have htotal : 1 + rest = 1 + initFixedLen + (nameBytes app).length + (nameBytes stream).length
      + (partsBytes [a, b, c', d]).length := by omega
  rw [htotal] at hsize
  rw [maxStreamLen] at hstreamMax
  have happ' : (nameBytes app).length ≤ maxAppLen := by
    rw [maxAppLen]
    omega
  have hstream' : (nameBytes stream).length ≤ maxStreamLen := by
    rw [maxStreamLen]
    omega
  refine ⟨hd ++ (nameBytes app ++ (nameBytes stream ++ partsBytes [a, b, c', d])), ?_, ?_⟩
  · rw [hin, happIn, hstreamIn, hpartsIn]
    simp
  · have hframe : toBytes 4 (1 + rest) ++ ([kindInitCache]
        ++ (hd ++ (nameBytes app ++ (nameBytes stream ++ partsBytes [a, b, c', d])))) =
        initCacheBytes app stream (.ofNat (headerField hd 1 8)) (.ofNat (headerField hd 9 4))
          [a, b, c', d] := by
      rw [initCacheBytes, hpack, htotal]
    rw [hframe]
    generalize UInt64.ofNat (headerField hd 1 8) = epoch
    generalize UInt32.ofNat (headerField hd 9 4) = keyframeTs
    exact writeFrameV2_initCache_iff epoch keyframeTs a b c' d happ' hstream' hsize

theorem readBodyV2_control (h : c.readBodyV2 grant kindControl rest s = .ok (msg, s')) :
    msg.isBinary = false := by
  rw [WireCodec.readBodyV2, if_pos rfl] at h
  obtain ⟨buf, s₁, -, h⟩ := read_bind_ok.1 h
  obtain ⟨msg', s₂, -, h⟩ := read_bind_ok.1 h
  cases msg' with
  | mediaFrame => cases h
  | initCache => cases h
  | _ =>
    obtain ⟨_, s₃, -, h⟩ := read_bind_ok.1 h
    cases h
    rfl

theorem readFrame_took {max : Nat} (h : c.readFrame grant 2 max s = .ok (msg, s')) :
    ∃ kind rest t, 1 + rest ≤ max ∧ s.input = toBytes 4 (1 + rest) ++ ([kind] ++ t.input) ∧
      c.readBodyV2 grant kind rest t = .ok (msg, s') := by
  obtain ⟨lenBytes, s₁, hlenBytes, h⟩ := read_bind_ok.1 h
  obtain ⟨hle, htake, hdrop⟩ := readExact_ok.1 hlenBytes
  obtain ⟨hfour, hin⟩ := took_of_take_drop ⟨hle, htake, congrArg Source.input hdrop⟩
  obtain ⟨hmax, h⟩ := refuseIf_bind_ok.1 h
  obtain ⟨_, s₂, hreserve, h⟩ := read_bind_ok.1 h
  rw [WireCodec.readBody, if_pos (by decide)] at h
  obtain ⟨hempty, h⟩ := refuseIf_bind_ok.1 h
  obtain ⟨kindBytes, s₃, hkindBytes, h⟩ := read_bind_ok.1 h
  obtain ⟨hone, hin'⟩ := took_of_take_drop (readExactBudgeted_ok hkindBytes)
  obtain ⟨-, h⟩ := refuseIf_bind_ok.1 h
  obtain ⟨kind, rfl⟩ := length_eq_one_iff.1 hone
  have hlen : 1 + (beNat lenBytes - 1) = beNat lenBytes := by omega
  refine ⟨kind, beNat lenBytes - 1, s₃, by omega, ?_, h⟩
  rw [hlen, toBytes_beNat hfour, hin, ← reserveBody_ok hreserve, hin']

end Rewritten

/-- **One spelling, but for the timestamp of an absent keyframe.** The bytes that the reader takes
for a message are what the writer gives for it, exactly if they are not an init cache with a
timestamp and no keyframe. -/
theorem rewritten_iff (c : WireCodec)
    (hhint : ∀ b hint, c.hintFromU8 b = some hint → c.hintToU8 hint = b)
    (grant : Nat → Nat → Bool) (max : Nat) (hmax : max ≤ maxFrame) (s s' : Source)
    (msg : MediaMessage) (hread : c.readFrame grant 2 max s = .ok (msg, s'))
    (hbinary : msg.isBinary = true) :
    ∃ frame, s.input = frame ++ s'.input ∧
      (c.writeFrameV2 msg = .ok frame ↔ strayKeyframeTs frame = false) := by
  obtain ⟨kind, rest, t, hsize, hin, hbody⟩ := readFrame_took hread
  have hwhole : ∀ body, t.input = body ++ s'.input →
      s.input = (toBytes 4 (1 + rest) ++ ([kind] ++ body)) ++ s'.input := by
    intro body hbody
    rw [hin, hbody]
    simp
  rcases readBodyV2_kind hbody with rfl | rfl | rfl
  · rw [readBodyV2_control hbody] at hbinary
    cases hbinary
  · obtain ⟨body, hbodyIn, hwrite⟩ := readMediaFrameV2_took hhint hbody (by omega)
    refine ⟨_, hwhole body hbodyIn, fun _ => ?_, fun _ => hwrite⟩
    have hkind : (toBytes 4 (1 + rest) ++ ([kindMediaFrame] ++ body)).getD 4 0 = kindMediaFrame := by
      rw [getD_append_right _ _ _ _ (by simp)]
      simp
    rw [strayKeyframeTs, decide_eq_false_iff_not, hkind]
    exact fun h => absurd h.1 (by decide)
  · obtain ⟨body, hbodyIn, hwrite⟩ := readInitCacheV2_took hbody (by omega)
    exact ⟨_, hwhole body hbodyIn, hwrite⟩

def strayFrame : List UInt8 :=
  [0, 0, 0, 24, 2, 0, 0, 0, 0, 0, 0, 0, 0, 7, 0, 0, 0, 1, 4, 0, 3, 0x6C, 0x69, 0x76, 0x65, 0x63, 0x61,
    0x6D]

theorem strayFrame_eq : strayFrame = initCacheBytes "live" "cam" 7 1 [none, none, none, none] := by
  decide

theorem readFrame_strayFrame : ∃ reserved',
    WireCodec.sample.readFrame (fun _ _ => true) 2 maxFrame ⟨strayFrame, .other "closed", 0⟩ =
      .ok (.initCache "live" "cam" 7 none none none none, ⟨[], .other "closed", reserved'⟩) := by
  have hread : Consumes (WireCodec.sample.readFrame (fun _ _ => true) 2 maxFrame) _ _ :=
    consumes_initCacheBytes (fun _ _ => rfl) 7 1 none none none none
      (show (nameBytes "live").length ≤ _ by decide) (show (nameBytes "cam").length ≤ _ by decide)
      (by decide)
  rw [← strayFrame_eq] at hread
  exact hread [] (.other "closed") 0

/-- The reader takes the frame for an init cache of which the writer makes another frame. -/
theorem stray_keyframeTs_dropped : ∃ msg s',
    WireCodec.sample.readFrame (fun _ _ => true) 2 maxFrame ⟨strayFrame, .other "closed", 0⟩
      = .ok (msg, s') ∧ s'.input = [] ∧ msg.isBinary = true ∧
    ∃ frame, WireCodec.sample.writeFrameV2 msg = .ok frame ∧ frame ≠ strayFrame := by
  obtain ⟨reserved, hread⟩ := readFrame_strayFrame
  refine ⟨_, _, hread, rfl, rfl, initCacheBytes "live" "cam" 7 0 [none, none, none, none], ?_, ?_⟩
  · exact (WireCodec.writeFrameV2_initCache _).2 ⟨by decide, by decide, rfl⟩
  · decide

/-- The hypotheses hold of that frame. -/
theorem rewritten_iff_stray : ∃ msg s' frame,
    WireCodec.sample.readFrame (fun _ _ => true) 2 maxFrame ⟨strayFrame, .other "closed", 0⟩
      = .ok (msg, s') ∧ strayFrame = frame ++ s'.input ∧
    (WireCodec.sample.writeFrameV2 msg = .ok frame ↔ strayKeyframeTs frame = false) := by
  obtain ⟨reserved, hread⟩ := readFrame_strayFrame
  have hcodes : ∀ b hint, WireCodec.sample.hintFromU8 b = some hint →
      WireCodec.sample.hintToU8 hint = b := by
    intro b hint h
    have h : (if b = 0 then some DeliveryHint.critical else if b = 1 then some .resyncPoint
      else if b = 2 then some .droppable else none) = some hint := h
    split_ifs at h with h₀ h₁ h₂
    · cases h
      rw [h₀]
      rfl
    · cases h
      rw [h₁]
      rfl
    · cases h
      rw [h₂]
      rfl
  obtain ⟨frame, hin, hiff⟩ := rewritten_iff WireCodec.sample hcodes (fun _ _ => true) maxFrame le_rfl
    _ _ _ hread rfl
  exact ⟨_, _, frame, hread, hin, hiff⟩

end RtmpServer
