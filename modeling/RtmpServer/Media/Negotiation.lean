import RtmpServer.Cluster.AdminProofs
import RtmpServer.Lib.Replay
import RtmpServer.Media.Wire

/-!
# Media version negotiation

The handshake of a media connection: the dialler's side of `connect_and_run` with
`client_media_auth` and `read_hello_ack`, and the acceptor's `accept_auth_negotiated`. Everything up
to the `Hello` and its confirmation is framed in version 1; after it both directions use the version
the dialler announced. The two sides are steps of one `MediaLink` with an in-order channel in each
direction that may be cut at any point.
-/

namespace RtmpServer

open List Lib.Replay Option

structure WireFrame where
  version : UInt16
  msg : MediaMessage
  deriving DecidableEq, Repr

/-- What a reader of `version` makes of a frame; one of the other framing is an error. -/
def WireFrame.readAs (f : WireFrame) (version : UInt16) : Option MediaMessage :=
  if (f.version ≥ 2) = (version ≥ 2) then some f.msg else none

/-- What the dialler waits for. `rejected` is `ConnectEnd::VersionRejected`. -/
inductive DialerPhase where
  | challenge
  | authOk
  | helloAck
  | running (version : UInt16)
  | rejected
  | failed
  deriving DecidableEq, Repr

inductive AcceptorPhase where
  | start
  | auth (nonce : List UInt8)
  | hello (node : UInt64)
  | running (node : UInt64) (version : UInt16)
  | failed
  deriving DecidableEq, Repr

/-- `version` is the one `connect_and_run` was called with. -/
structure HandshakeConfig where
  secret : String
  dialer : UInt64
  acceptor : UInt64
  version : UInt16
  authResponse : String → UInt64 → List UInt8 → String

/-- The frames in flight, and whether the direction was cut. `sent` and `taken` are not in the
source: what was ever written, and how many frames were read. -/
structure Channel where
  inFlight : List WireFrame
  isCut : Bool
  sent : List WireFrame
  taken : Nat
  deriving DecidableEq, Repr

namespace Channel

def empty : Channel := ⟨[], false, [], 0⟩

/-- A write; what is written after the cut does not arrive. -/
def write (c : Channel) (f : WireFrame) : Channel :=
  { c with
    inFlight := if c.isCut then c.inFlight else c.inFlight ++ [f]
    sent := c.sent ++ [f] }

def take (c : Channel) : Channel := { c with inFlight := c.inFlight.tail, taken := c.taken + 1 }

/-- Only the first `n` frames in flight still arrive. -/
def cut (c : Channel) (n : Nat) : Channel := { c with inFlight := c.inFlight.take n, isCut := true }

end Channel

structure MediaLink where
  dialer : DialerPhase
  acceptor : AcceptorPhase
  toAcceptor : Channel
  toDialer : Channel
  deriving DecidableEq, Repr

/-- `written` says whether the write that answers a frame succeeds. -/
inductive LinkOp where
  | dialerReads (written : Bool)
  | dialerTimeout
  | dialerEof
  | dialerWrites (msg : MediaMessage)
  | acceptorStarts (rateLimited : Bool) (nonce : List UInt8) (written : Bool)
  | acceptorReads (tlsOk : Bool) (written : Bool)
  | acceptorFails
  | acceptorWrites (msg : MediaMessage)
  | cutToAcceptor (n : Nat)
  | cutToDialer (n : Nat)
  deriving DecidableEq, Repr

def handshakeFrame (msg : MediaMessage) : WireFrame := ⟨mediaProtocolMinVersion, msg⟩

namespace HandshakeConfig

variable (cfg : HandshakeConfig)

/-- `client_media_auth`, the `Hello` and `read_hello_ack`, by what the dialler waits for: the next
phase and the message it writes. -/
def dialerStep : DialerPhase → Option MediaMessage → DialerPhase × Option MediaMessage
  | .challenge, some (.authChallenge nonce) =>
    (.authOk, some (.auth cfg.dialer (cfg.authResponse cfg.secret cfg.dialer nonce)))
  | .authOk, some .authOk =>
    (if cfg.version > mediaProtocolMinVersion then .helloAck else .running cfg.version,
      some (.hello cfg.version cfg.dialer))
  | .helloAck, some (.hello version _) =>
    (if version = cfg.version then .running cfg.version else .rejected, none)
  | .helloAck, _ => (.rejected, none)
  | .running version, some _ => (.running version, none)
  | _, _ => (.failed, none)

/-- `accept_auth_negotiated` after its challenge: the next phase and the message it writes. -/
def acceptorStep (tlsOk : Bool) :
    AcceptorPhase → Option MediaMessage → AcceptorPhase × Option MediaMessage
  | .auth nonce, some (.auth node response) =>
    if !secretsEqual (cfg.authResponse cfg.secret node nonce) response then
      (.failed, some .authFail)
    else if !tlsOk then (.failed, none)
    else (.hello node, some .authOk)
  | .auth _, some _ => (.failed, some .authFail)
  | .hello node, some (.hello version helloId) =>
    if !isSupportedVersion version then
      (.failed, some (.error "VERSION" "unsupported media protocol" 0))
    else if helloId ≠ node then (.failed, none)
    else
      (.running node version,
        if version > mediaProtocolMinVersion then some (.hello version cfg.acceptor) else none)
  | .running node version, some _ => (.running node version, none)
  | _, _ => (.failed, none)

end HandshakeConfig

/-- The version a side reads in: the handshake is version 1 throughout. -/
def DialerPhase.readVersion : DialerPhase → UInt16
  | .running version => version
  | _ => mediaProtocolMinVersion

def AcceptorPhase.readVersion : AcceptorPhase → UInt16
  | .running _ version => version
  | _ => mediaProtocolMinVersion

/-- Neither side does anything more once it has failed, and the dialler not once it was rejected. -/
def DialerPhase.ended : DialerPhase → Bool
  | .rejected | .failed => true
  | _ => false

def AcceptorPhase.ended : AcceptorPhase → Bool
  | .failed => true
  | _ => false

def Channel.answer (c : Channel) (msg : Option MediaMessage) : Channel :=
  match msg with
  | some msg => c.write (handshakeFrame msg)
  | none => c

namespace MediaLink

variable (cfg : HandshakeConfig)

def start : MediaLink := ⟨.challenge, .start, .empty, .empty⟩

def step (l : MediaLink) : LinkOp → Option MediaLink
  | .dialerReads written =>
    match l.toDialer.inFlight with
    | [] => none
    | f :: _ =>
      if l.dialer.ended then none
      else
        let r := cfg.dialerStep l.dialer (f.readAs l.dialer.readVersion)
        let l := { l with toDialer := l.toDialer.take }
        if r.2.isSome && !written then some { l with dialer := .failed }
        else some { l with dialer := r.1, toAcceptor := l.toAcceptor.answer r.2 }
  | .dialerTimeout =>
    -- a peer that stays silent after the `Hello` is not a legacy peer
    match l.dialer with
    | .challenge | .authOk => some { l with dialer := .failed }
    | .helloAck => some { l with dialer := .running cfg.version }
    | _ => none
  | .dialerEof =>
    match l.dialer with
    | .helloAck => some { l with dialer := .rejected }
    | .rejected => none
    | _ => some { l with dialer := .failed }
  | .dialerWrites msg =>
    match l.dialer with
    | .running version => some { l with toAcceptor := l.toAcceptor.write ⟨version, msg⟩ }
    | _ => none
  | .acceptorStarts rateLimited nonce written =>
    if l.acceptor = .start then
      if rateLimited || !written then
        some { l with
          acceptor := .failed
          toDialer := l.toDialer.answer (if written then some .authFail else none) }
      else some { l with
        acceptor := .auth nonce
        toDialer := l.toDialer.answer (some (.authChallenge nonce)) }
    else none
  | .acceptorReads tlsOk written =>
    match l.toAcceptor.inFlight with
    | [] => none
    | f :: _ =>
      if l.acceptor.ended || l.acceptor = .start then none
      else
        let r := cfg.acceptorStep tlsOk l.acceptor (f.readAs l.acceptor.readVersion)
        let l := { l with toAcceptor := l.toAcceptor.take }
        if r.2.isSome && !written then some { l with acceptor := .failed }
        else some { l with acceptor := r.1, toDialer := l.toDialer.answer r.2 }
  | .acceptorFails => some { l with acceptor := .failed }
  | .acceptorWrites msg =>
    match l.acceptor with
    | .running _ version => some { l with toDialer := l.toDialer.write ⟨version, msg⟩ }
    | _ => none
  | .cutToAcceptor n => some { l with toAcceptor := l.toAcceptor.cut n }
  | .cutToDialer n => some { l with toDialer := l.toDialer.cut n }

end MediaLink

/-! ### Channels keep the order -/

/-- What is in flight comes next in what was written; all of it, as long as nothing was cut. -/
structure Channel.Ordered (c : Channel) : Prop where
  bound : c.taken ≤ c.sent.length
  next : c.inFlight <+: c.sent.drop c.taken
  complete : c.isCut = false → c.inFlight = c.sent.drop c.taken

namespace Channel.Ordered

variable {c : Channel}
variable {rest : List WireFrame} {f : WireFrame}

theorem empty : Channel.empty.Ordered := ⟨le_refl _, prefix_rfl, fun _ => rfl⟩

theorem write (h : c.Ordered) (f : WireFrame) : (c.write f).Ordered := by
  have hdrop : (c.sent ++ [f]).drop c.taken = c.sent.drop c.taken ++ [f] :=
    drop_append_of_le_length h.bound
  refine ⟨?_, ?_, fun hcut => ?_⟩
  · show c.taken ≤ (c.sent ++ [f]).length
    have := h.bound
    rw [length_append]
    omega
  · show (if c.isCut then c.inFlight else c.inFlight ++ [f]) <+: (c.sent ++ [f]).drop c.taken
    rw [hdrop]
    cases hcut : c.isCut with
    | true =>
      rw [if_pos rfl]
      exact h.next.trans (prefix_append _ _)
    | false =>
      rw [if_neg Bool.false_ne_true]
      exact ⟨[], by rw [append_nil, h.complete hcut]⟩
  · have hcut : c.isCut = false := hcut
    show (if c.isCut then c.inFlight else c.inFlight ++ [f]) = (c.sent ++ [f]).drop c.taken
    rw [hdrop, hcut, if_neg Bool.false_ne_true, h.complete hcut]

theorem answer (h : c.Ordered) (msg : Option MediaMessage) : (c.answer msg).Ordered := by
  cases msg with
  | none => exact h
  | some msg => exact h.write _

theorem cut (h : c.Ordered) (n : Nat) : (c.cut n).Ordered :=
  ⟨h.bound, ( take_prefix n _).trans h.next, nofun⟩

theorem head (h : c.Ordered) (hf : c.inFlight = f :: rest) : c.sent[c.taken]? = some f := by
  obtain ⟨later, hlater⟩ := h.next
  rw [hf, cons_append] at hlater
  rw [← head?_drop, ← hlater, head?_cons]

theorem take (h : c.Ordered) (hf : c.inFlight = f :: rest) : c.take.Ordered := by
  have htail : c.sent.drop (c.taken + 1) = (c.sent.drop c.taken).tail := List.tail_drop.symm
  refine ⟨?_, ?_, fun hcut => ?_⟩
  · exact (List.getElem?_eq_some_iff.1 (h.head hf)).1
  · show c.inFlight.tail <+: c.sent.drop (c.taken + 1)
    obtain ⟨later, hlater⟩ := h.next
    rw [htail, ← hlater, hf]
    exact prefix_append _ _
  · show c.inFlight.tail = c.sent.drop (c.taken + 1)
    rw [htail, h.complete hcut]

end Channel.Ordered

/-! ### What each side does -/

section Steps

variable {cfg : HandshakeConfig}
variable {sent : List WireFrame} {phase : DialerPhase} {version : UInt16} {f : WireFrame}
  {l : MediaLink}

def HandshakeConfig.helloFrame (cfg : HandshakeConfig) : WireFrame :=
  handshakeFrame (.hello cfg.version cfg.dialer)

inductive DialerStep (cfg : HandshakeConfig) :
    DialerPhase → DialerPhase × Option MediaMessage → Prop
  | auth (msg : MediaMessage) : DialerStep cfg .challenge (.authOk, some msg)
  | hello (next : DialerPhase) (hnext : next = .helloAck ∨ next = .running cfg.version) :
    DialerStep cfg .authOk (next, some (.hello cfg.version cfg.dialer))
  | ack (next : DialerPhase) (hnext : next = .running cfg.version ∨ next = .rejected) :
    DialerStep cfg .helloAck (next, none)
  | read (version : UInt16) : DialerStep cfg (.running version) (.running version, none)
  | fail (phase : DialerPhase) : DialerStep cfg phase (.failed, none)

theorem dialerStep_spec (phase : DialerPhase) (msg : Option MediaMessage) :
    DialerStep cfg phase (cfg.dialerStep phase msg) := by
  unfold HandshakeConfig.dialerStep
  split
  · exact .auth _
  · refine .hello _ ?_
    split_ifs
    · exact .inl rfl
    · exact .inr rfl
  · refine .ack _ ?_
    split_ifs
    · exact .inl rfl
    · exact .inr rfl
  · exact .ack _ (.inr rfl)
  · exact .read _
  · exact .fail _

/-- What the acceptor can do with a frame; it takes the version from the dialler's `Hello`. -/
inductive AcceptorStep (msg : Option MediaMessage) : AcceptorPhase → AcceptorPhase → Prop
  | auth (nonce : List UInt8) (node : UInt64) : AcceptorStep msg (.auth nonce) (.hello node)
  | hello (node helloId : UInt64) (version : UInt16) (hmsg : msg = some (.hello version helloId))
      (hsupported : isSupportedVersion version = true) :
    AcceptorStep msg (.hello node) (.running node version)
  | read (node : UInt64) (version : UInt16) :
    AcceptorStep msg (.running node version) (.running node version)
  | fail (phase : AcceptorPhase) : AcceptorStep msg phase .failed

theorem acceptorStep_spec (tlsOk : Bool) (phase : AcceptorPhase) (msg : Option MediaMessage) :
    AcceptorStep msg phase (cfg.acceptorStep tlsOk phase msg).1 := by
  unfold HandshakeConfig.acceptorStep
  split
  · split_ifs
    · exact .fail _
    · exact .fail _
    · exact .auth _ _
  · exact .fail _
  · rename_i node version helloId
    by_cases hsupported : isSupportedVersion version = true
    · rw [hsupported, Bool.not_true, if_neg Bool.false_ne_true]
      by_cases hid : helloId ≠ node
      · rw [if_pos hid]
        exact .fail _
      · rw [if_neg hid]
        exact .hello _ _ _ rfl hsupported
    · rw [if_pos (by simpa using hsupported)]
      exact .fail _
  · exact .read _ _
  · exact .fail _

/-! ### The handshake's invariant -/

/-- What the dialler has written when it is in a phase: its second frame, if it got that far, is the
`Hello`. -/
def DialerPhase.Wrote (cfg : HandshakeConfig) : DialerPhase → List WireFrame → Prop
  | .challenge, sent => sent.length = 0
  | .authOk, sent => sent.length = 1
  | .helloAck, sent => sent[1]? = some cfg.helloFrame
  | .running version, sent => version = cfg.version ∧ sent[1]? = some cfg.helloFrame
  | .rejected, sent | .failed, sent => ∀ f, sent[1]? = some f → f = cfg.helloFrame

/-- How many frames the acceptor has read when it is in a phase. -/
def AcceptorPhase.Read (cfg : HandshakeConfig) : AcceptorPhase → Nat → Prop
  | .start, taken | .auth _, taken => taken = 0
  | .hello _, taken => taken = 1
  | .running _ version, _ => version = cfg.version ∧ isSupportedVersion version = true
  | .failed, _ => True

structure MediaLink.Inv (cfg : HandshakeConfig) (l : MediaLink) : Prop where
  ordered : l.toAcceptor.Ordered
  wrote : l.dialer.Wrote cfg l.toAcceptor.sent
  read : l.acceptor.Read cfg l.toAcceptor.taken

theorem DialerPhase.Wrote.second (h : phase.Wrote cfg sent) :
    ∀ f, sent[1]? = some f → f = cfg.helloFrame := by
  intro f hf
  cases phase with
  | challenge =>
    have hlen : sent.length = 0 := h
    rw [getElem?_eq_none (by omega)] at hf
    cases hf
  | authOk =>
    have hlen : sent.length = 1 := h
    rw [getElem?_eq_none (by omega)] at hf
    cases hf
  | helloAck => exact some.inj (hf.symm.trans h)
  | running version => exact some.inj (hf.symm.trans h.2)
  | rejected => exact h f hf
  | failed => exact h f hf

theorem DialerPhase.Wrote.failed (h : phase.Wrote cfg sent) : DialerPhase.failed.Wrote cfg sent :=
  h.second

theorem Channel.sent_answer (c : Channel) (msg : Option MediaMessage) :
    (c.answer msg).sent = c.sent ++ (msg.map handshakeFrame).toList := by
  cases msg with
  | none => exact (append_nil _).symm
  | some msg => rfl

theorem Channel.taken_answer (c : Channel) (msg : Option MediaMessage) :
    (c.answer msg).taken = c.taken := by
  cases msg with
  | none => rfl
  | some msg => rfl

/-- **The dialler's step.** What it wrote stays as its phase says. -/
theorem DialerPhase.Wrote.step {c : Channel} {r : DialerPhase × Option MediaMessage}
    (hstep : DialerStep cfg phase r) (h : phase.Wrote cfg c.sent) :
    r.1.Wrote cfg (c.answer r.2).sent := by
  rw [c.sent_answer]
  cases hstep with
  | auth msg =>
    have hlen : c.sent.length = 0 := h
    show (c.sent ++ [handshakeFrame msg]).length = 1
    rw [length_append, hlen]
    rfl
  | hello next hnext =>
    have hlen : c.sent.length = 1 := h
    have hsecond : (c.sent ++ [cfg.helloFrame])[1]? = some cfg.helloFrame := by
      rw [getElem?_append_right (by omega), hlen]
      rfl
    rcases hnext with rfl | rfl
    · exact hsecond
    · exact ⟨rfl, hsecond⟩
  | ack next hnext =>
    rw [map_none, toList_none, append_nil]
    rcases hnext with rfl | rfl
    · exact ⟨rfl, h⟩
    · exact h.second
  | read version => simpa using h
  | fail => simpa using h.failed

theorem DialerPhase.Wrote.write (h : (DialerPhase.running version).Wrote cfg sent) (f : WireFrame) :
    (DialerPhase.running version).Wrote cfg (sent ++ [f]) := by
  have hlt : 1 < sent.length := (List.getElem?_eq_some_iff.1 h.2).1
  exact ⟨h.1, by rw [List.getElem?_append_left hlt]; exact h.2⟩

theorem readAs_some {msg : MediaMessage} (h : f.readAs version = some msg) : f.msg = msg := by
  unfold WireFrame.readAs at h
  split_ifs at h
  exact some.inj h

/-- **The acceptor's step.** The `Hello` it goes on with is the dialler's second frame. -/
theorem AcceptorPhase.Read.step (h : l.Inv cfg) {rest : List WireFrame}
    (hf : l.toAcceptor.inFlight = f :: rest) {next : AcceptorPhase}
    (hstep : AcceptorStep (f.readAs l.acceptor.readVersion) l.acceptor next) :
    next.Read cfg (l.toAcceptor.taken + 1) := by
  have hread := h.read
  generalize l.acceptor = phase at hstep hread
  cases hstep with
  | auth nonce node =>
    have htaken : l.toAcceptor.taken = 0 := hread
    show l.toAcceptor.taken + 1 = 1
    omega
  | hello node helloId version hmsg hsupported =>
    have htaken : l.toAcceptor.taken = 1 := hread
    have hsecond := h.ordered.head hf
    rw [htaken] at hsecond
    have hhello : f = cfg.helloFrame := h.wrote.second f hsecond
    have hmsg' : f.msg = .hello version helloId := readAs_some hmsg
    rw [hhello] at hmsg'
    injection hmsg' with hversion _
    exact ⟨hversion.symm, hsupported⟩
  | read node version => exact hread
  | fail => trivial

theorem MediaLink.start_inv : MediaLink.start.Inv cfg :=
  ⟨Channel.Ordered.empty, rfl, rfl⟩

namespace MediaLink.Inv

variable {l : MediaLink}

theorem dialerFails (h : l.Inv cfg) (toDialer : Channel) :
    MediaLink.Inv cfg { l with dialer := .failed, toDialer } :=
  ⟨h.ordered, h.wrote.failed, h.read⟩

theorem toDialer (h : l.Inv cfg) (toDialer : Channel) : MediaLink.Inv cfg { l with toDialer } :=
  ⟨h.ordered, h.wrote, h.read⟩

theorem dialerReads (h : l.Inv cfg) (msg : Option MediaMessage) (toDialer : Channel) :
    MediaLink.Inv cfg
      { l with
        dialer := (cfg.dialerStep l.dialer msg).1
        toAcceptor := l.toAcceptor.answer (cfg.dialerStep l.dialer msg).2
        toDialer } := by
  refine ⟨h.ordered.answer _, h.wrote.step (dialerStep_spec l.dialer msg), ?_⟩
  show l.acceptor.Read cfg (l.toAcceptor.answer _).taken
  rw [Channel.taken_answer]
  exact h.read

theorem acceptorReads (h : l.Inv cfg) {f : WireFrame} {rest : List WireFrame}
    (hf : l.toAcceptor.inFlight = f :: rest) {next : AcceptorPhase}
    (hstep : AcceptorStep (f.readAs l.acceptor.readVersion) l.acceptor next) (toDialer : Channel) :
    MediaLink.Inv cfg
      { l with acceptor := next, toAcceptor := l.toAcceptor.take, toDialer } :=
  ⟨h.ordered.take hf, h.wrote, AcceptorPhase.Read.step h hf hstep⟩

end MediaLink.Inv

/-- **One step.** -/
theorem MediaLink.step_inv {l l' : MediaLink} {op : LinkOp} (h : l.Inv cfg)
    (hstep : MediaLink.step cfg l op = some l') : l'.Inv cfg := by
  cases op with
  | dialerReads written =>
    rw [MediaLink.step] at hstep
    split at hstep
    · cases hstep
    · dsimp only at hstep
      split_ifs at hstep <;> cases hstep
      · exact h.dialerFails _
      · exact h.dialerReads _ _
  | dialerTimeout =>
    rw [MediaLink.step] at hstep
    split at hstep <;> cases hstep
    · exact h.dialerFails _
    · exact h.dialerFails _
    · rename_i hphase
      have hwrote := h.wrote
      rw [hphase] at hwrote
      exact ⟨h.ordered, ⟨rfl, hwrote⟩, h.read⟩
  | dialerEof =>
    rw [MediaLink.step] at hstep
    split at hstep <;> cases hstep
    · exact ⟨h.ordered, h.wrote.second, h.read⟩
    · exact h.dialerFails _
  | dialerWrites msg =>
    rw [MediaLink.step] at hstep
    split at hstep <;> cases hstep
    rename_i version hphase
    have hwrote := h.wrote
    rw [hphase] at hwrote
    refine ⟨h.ordered.write _, ?_, h.read⟩
    show l.dialer.Wrote cfg _
    rw [hphase]
    exact hwrote.write _
  | acceptorStarts rateLimited nonce written =>
    rw [MediaLink.step] at hstep
    split_ifs at hstep with hphase <;> cases hstep
    · exact ⟨h.ordered, h.wrote, trivial⟩
    · exact ⟨h.ordered, h.wrote, trivial⟩
    · have hread := h.read
      rw [hphase] at hread
      exact ⟨h.ordered, h.wrote, hread⟩
  | acceptorReads tlsOk written =>
    rw [MediaLink.step] at hstep
    split at hstep
    · cases hstep
    · rename_i f rest hf
      dsimp only at hstep
      split_ifs at hstep <;> cases hstep
      · exact h.acceptorReads hf (.fail _) _
      · exact h.acceptorReads hf (acceptorStep_spec tlsOk _ _) _
  | acceptorFails =>
    cases hstep
    exact ⟨h.ordered, h.wrote, trivial⟩
  | acceptorWrites msg =>
    rw [MediaLink.step] at hstep
    split at hstep <;> cases hstep
    exact h.toDialer _
  | cutToAcceptor n =>
    cases hstep
    exact ⟨h.ordered.cut n, h.wrote, h.read⟩
  | cutToDialer n =>
    cases hstep
    exact h.toDialer _

theorem MediaLink.run_inv {ops : List LinkOp}
    (hrun : replay (MediaLink.step cfg) .start ops = some l) : l.Inv cfg :=
  replay_inv (fun _ _ _ _ h hstep => MediaLink.step_inv h hstep) MediaLink.start_inv hrun

end Steps

/-- **Both sides use one version.** Whenever dialler and acceptor go on to exchange media messages
they read and write in the same version; and no frame is accepted by a reader of version 1 and by
one of version 2, whatever their limits and budgets. -/
theorem media_version_agreement (c : WireCodec) (hjson : c.RejectsNonJson) :
    (∀ (cfg : HandshakeConfig) (ops : List LinkOp) (l : MediaLink),
      replay (MediaLink.step cfg) .start ops = some l →
      ∀ v node w, l.dialer = .running v → l.acceptor = .running node w →
        v = w ∧ isSupportedVersion w = true) ∧
    (∀ (v w : UInt16), v < 2 → 2 ≤ w →
      ∀ (grant grant' : Nat → Nat → Bool) (max max' : Nat) (s t s' t' : Source)
        (msg msg' : MediaMessage), s.input = t.input →
        ¬ (c.readFrame grant v max s = .ok (msg, s') ∧
          c.readFrame grant' w max' t = .ok (msg', t'))) := by
  refine ⟨fun cfg ops l hrun v node w hdialer hacceptor => ?_, ?_⟩
  · have hinv := MediaLink.run_inv hrun
    have hwrote := hinv.wrote
    have hread := hinv.read
    rw [hdialer] at hwrote
    rw [hacceptor] at hread
    exact ⟨hwrote.1.trans hread.1.symm, hread.2⟩
  · intro v w hv hw grant grant' max max' s t s' t' msg msg' hin ⟨h, h'⟩
    exact readFrame_disjoint hjson hv hw hin.symm h h'

/-- `AuthOk` as serde writes it: a unit variant is its quoted name. -/
def authOkJson : List UInt8 := [0x22, 0x41, 0x75, 0x74, 0x68, 0x4F, 0x6B, 0x22]

def authOkSource : Source := ⟨beBytes 4 8 ++ authOkJson, .other "closed", 0⟩

def authOkCodec : WireCodec where
  toJson _ := authOkJson
  fromJson body := if body = authOkJson then .ok .authOk else .error "unknown variant"
  hintToU8 _ := 0
  hintFromU8 _ := none

theorem authOkCodec_rejects : authOkCodec.RejectsNonJson := by
  intro body msg h
  have h : (if body = authOkJson then Except.ok MediaMessage.authOk
    else .error "unknown variant") = Except.ok msg := h
  split_ifs at h with hbody
  exact ⟨_, _, hbody, by decide⟩

/-- Nodes 1 and 2 agree on version 2, and the acceptor reads a first media message; the frame of
`AuthOk` is one of version 1 only. -/
theorem media_version_agreement_confirmed :
    authOkCodec.RejectsNonJson ∧
    (∃ l, replay (MediaLink.step ⟨"key", 1, 2, 2, fun secret _ _ => secret⟩) .start
      [.acceptorStarts false [7] true, .dialerReads true, .acceptorReads true true,
        .dialerReads true, .acceptorReads true true, .dialerReads true,
        .dialerWrites (.subscribe "live" "cam" 0 1), .acceptorReads true true] = some l ∧
      l.dialer = .running 2 ∧ l.acceptor = .running 1 2 ∧ isSupportedVersion 2 = true) ∧
    (∃ s', authOkCodec.readFrame (fun _ _ => true) 1 64 authOkSource = .ok (.authOk, s')) ∧
    ∀ msg t', authOkCodec.readFrame (fun _ _ => true) 2 64 authOkSource ≠ .ok (msg, t') := by
  have hagree := media_version_agreement authOkCodec authOkCodec_rejects
  have hread : ∃ s', authOkCodec.readFrame (fun _ _ => true) 1 64 authOkSource
      = .ok (.authOk, s') := ⟨_, rfl⟩
  refine ⟨authOkCodec_rejects, ⟨_, rfl, rfl, rfl, ?_⟩, hread, fun msg t' h => ?_⟩
  · have hrunning := hagree.1 ⟨"key", 1, 2, 2, fun secret _ _ => secret⟩
      [.acceptorStarts false [7] true, .dialerReads true, .acceptorReads true true,
        .dialerReads true, .acceptorReads true true, .dialerReads true] _ rfl
    exact (hrunning 2 1 2 rfl rfl).2
  · obtain ⟨s', hs'⟩ := hread
    exact hagree.2 1 2 (by decide) (by decide) _ _ _ _ _ _ _ _ _ _ rfl ⟨hs', h⟩

end RtmpServer
