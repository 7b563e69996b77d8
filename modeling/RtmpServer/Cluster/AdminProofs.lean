import RtmpServer.Db.Schema
import Mathlib.Data.List.GetD
import Mathlib.Data.List.TakeDrop

/-!
# Admin proofs and their replay cache

A control message that changes the cluster carries a proof: a nonce and a keyed hash of the nonce
and the action. A node keeps the proofs it has seen in `used_admin_proofs`, each with the instant it
was entered, and refuses a proof that is in the map. A proof for a join stays usable until the new
member is heard from, and is entered then (`pending_join_proofs`). Every look at the map first drops
the entries that are ten minutes old, and a proof has no age of its own.

A run keeps the history of what was presented and what was spent. Instants are in nanoseconds, and
the keyed hash is a parameter.
-/

namespace RtmpServer

open List Option Nat Function

variable {adminProof : String → String → String} {pending : List PendingJoinProof}
  {history : List ProofEvent} {apiToken : Option String} {proof : String} {now : Nat} {c : Char}
  {n : Nat}

/-! ### Proofs -/

/-- `secrets_equal`: the bytes are compared without an early exit. -/
def secretsEqual (a b : String) : Bool :=
  let x := a.toByteArray.data.toList
  let y := b.toByteArray.data.toList
  let diff : UInt8 := if x.length ≠ y.length then 1 else 0
  (List.range (max x.length y.length)).foldl
    (fun diff i => diff ||| (x.getD i 0 ^^^ y.getD i 0)) diff == 0

theorem UInt8.or_eq_zero (a b : UInt8) : a ||| b = 0 ↔ a = 0 ∧ b = 0 := by
  rw [← UInt8.toNat_inj, ← UInt8.toNat_inj, ← UInt8.toNat_inj]
  simp

theorem foldl_or_eq_zero (f : Nat → UInt8) (l : List Nat) (init : UInt8) :
    l.foldl (fun diff i => diff ||| f i) init = 0 ↔ init = 0 ∧ ∀ i ∈ l, f i = 0 := by
  induction l generalizing init with
  | nil => simp
  | cons i l ih =>
    rw [foldl_cons, ih, UInt8.or_eq_zero, forall_mem_cons, and_assoc]

theorem secretsEqual_iff (a b : String) : secretsEqual a b ↔ a = b := by
  constructor
  · intro h
    simp only [secretsEqual, beq_iff_eq, foldl_or_eq_zero, mem_range] at h
    obtain ⟨hlen, hall⟩ := h
    have hlen : a.toByteArray.data.toList.length = b.toByteArray.data.toList.length := by
      by_contra hne
      rw [if_pos hne] at hlen
      exact absurd hlen (by decide)
    have hdata : a.toByteArray.data.toList = b.toByteArray.data.toList := by
      refine ext_getElem hlen fun i h₁ h₂ => ?_
      have := hall i (by omega)
      rw [getD_eq_getElem _ _ h₁, getD_eq_getElem _ _ h₂, UInt8.xor_eq_zero_iff] at this
      exact this
    have : a.toByteArray = b.toByteArray := by
      rw [ByteArray.ext_iff]
      exact Array.toList_inj.1 hdata
    exact String.toByteArray_inj.1 this
  · rintro rfl
    simp [secretsEqual]

def hexDigitValue (c : Char) : Option Nat :=
  if '0' ≤ c ∧ c ≤ '9' then some (c.toNat - '0'.toNat)
  else if 'a' ≤ c ∧ c ≤ 'f' then some (c.toNat - 'a'.toNat + 10)
  else if 'A' ≤ c ∧ c ≤ 'F' then some (c.toNat - 'A'.toNat + 10)
  else none

/-- `hex::decode`. -/
def hexDecode : List Char → Option (List UInt8)
  | [] => some []
  | [_] => none
  | hi :: lo :: rest => do
    let h ← hexDigitValue hi
    let l ← hexDigitValue lo
    let bytes ← hexDecode rest
    return UInt8.ofNat (16 * h + l) :: bytes

/-- `hex::encode`. -/
def hexEncode (bytes : List UInt8) : List Char :=
  bytes.flatMap fun b => [digitChar (b.toNat / 16), digitChar (b.toNat % 16)]

def splitOnce (c : Char) (s : String) : Option (String × String) :=
  match s.toList.span (· ≠ c) with
  | (before, _ :: after) => some (String.ofList before, String.ofList after)
  | (_, []) => none

/-- The text of a serialised JSON value. None starts with the `J` of a join. -/
structure JsonText where
  text : String
  notJoin : text.toList.head? ≠ some 'J'

inductive AdminRequest where
  | join (nodeId : UInt64) (controlAddr mediaAddr : String)
  | clientWrite (req : JsonText)
  | changeMembership (req : JsonText)
  | adminDrain (nodeId : UInt64)
  | adminResume (nodeId : UInt64)

def joinAdminProofPayload (nodeId : UInt64) (controlAddr mediaAddr : String) : String :=
  "Join:" ++ toString nodeId.toNat ++ ":" ++ controlAddr ++ ":" ++ mediaAddr

def AdminRequest.payload : AdminRequest → String
  | .join nodeId controlAddr mediaAddr => joinAdminProofPayload nodeId controlAddr mediaAddr
  | .clientWrite req => req.text
  | .changeMembership req => req.text
  | .adminDrain nodeId => "AdminDrain:" ++ toString nodeId.toNat
  | .adminResume nodeId => "AdminResume:" ++ toString nodeId.toNat

/-- `payload.starts_with("Join:")`. -/
def isJoinPayload (payload : String) : Bool := "Join:".toList.isPrefixOf payload.toList

def AdminRequest.isJoin : AdminRequest → Bool
  | .join .. => true
  | _ => false

theorem isJoinPayload_payload (r : AdminRequest) : isJoinPayload r.payload = r.isJoin := by
  have json : ∀ req : JsonText, isJoinPayload req.text = false := by
    rintro ⟨text, hnot⟩
    cases htext : text.toList with
    | nil => simp [isJoinPayload, htext]
    | cons c cs =>
      have hc : c ≠ 'J' := by simpa [htext] using hnot
      simp [isJoinPayload, htext, isPrefixOf, hc.symm]
  cases r with
  | join nodeId controlAddr mediaAddr =>
    simp [AdminRequest.payload, joinAdminProofPayload, isJoinPayload, AdminRequest.isJoin,
      String.toList_append]
  | clientWrite req => exact json req
  | changeMembership req => exact json req
  | adminDrain nodeId =>
    simp [AdminRequest.payload, isJoinPayload, AdminRequest.isJoin, String.toList_append,
      isPrefixOf]
  | adminResume nodeId =>
    simp [AdminRequest.payload, isJoinPayload, AdminRequest.isJoin, String.toList_append,
      isPrefixOf]

section Signatures

variable (adminProof : String → String → String)

/-- `mint_fresh_admin_proof`, with the nonce it draws. -/
def mintFreshAdminProof (apiToken payload : String) (nonce : List UInt8) : String :=
  let nonce := String.ofList (hexEncode nonce)
  nonce ++ "." ++ adminProof apiToken (nonce ++ ":" ++ payload)

def adminProofSignatureValid (apiToken payload proof : String) : Bool :=
  match splitOnce '.' proof with
  | none => false
  | some (nonce, mac) =>
    if nonce.utf8ByteSize ≠ 32 ∨ (hexDecode nonce.toList).all (·.length ≠ 16) = true then false
    else secretsEqual (adminProof apiToken (nonce ++ ":" ++ payload)) mac

/-- What `verify_admin_proof` checks before it looks at the replay cache. `apiToken` is nothing while
the session hooks are not set. -/
def wellSigned (apiToken : Option String) (proof payload : String) : Bool :=
  if proof.isEmpty then false
  else
    match apiToken with
    | none => false
    | some token =>
      if token.isEmpty then false else adminProofSignatureValid adminProof token payload proof

variable {adminProof}

theorem wellSigned_payload (hinj : ∀ token, Function.Injective (adminProof token))
    {apiToken : Option String} {proof p q : String} (hp : wellSigned adminProof apiToken proof p)
    (hq : wellSigned adminProof apiToken proof q) : p = q := by
  cases apiToken with
  | none => simp [wellSigned] at hp
  | some token =>
    simp only [wellSigned, adminProofSignatureValid] at hp hq
    split_ifs at hp hq
    split at hp
    · simp at hp
    · rename_i nonce mac hsplit
      rw [hsplit] at hq
      dsimp only at hq
      split_ifs at hp hq
      rw [secretsEqual_iff] at hp hq
      have hsame := hinj token (hp.trans hq.symm)
      exact String.append_right_inj _ |>.1 hsame

end Signatures

/-! ### Minted proofs are well signed -/

theorem hexDigitValue_digitChar (hn : n < 16) : hexDigitValue (digitChar n) = some n := by
  have : ∀ n : Fin 16, hexDigitValue (digitChar n) = some n.val := by decide
  exact this ⟨n, hn⟩

theorem hexDecode_hexEncode (bytes : List UInt8) : hexDecode (hexEncode bytes) = some bytes := by
  induction bytes with
  | nil => rfl
  | cons b bytes ih =>
    have hb := b.toNat_lt
    show hexDecode (digitChar (b.toNat / 16) :: digitChar (b.toNat % 16) :: hexEncode bytes)
      = some (b :: bytes)
    rw [hexDecode, hexDigitValue_digitChar (by omega), hexDigitValue_digitChar (by omega), ih]
    show some (UInt8.ofNat (16 * (b.toNat / 16) + b.toNat % 16) :: bytes) = some (b :: bytes)
    rw [div_add_mod, UInt8.ofNat_toNat]

theorem hexEncode_length (bytes : List UInt8) : (hexEncode bytes).length = 2 * bytes.length := by
  induction bytes with
  | nil => rfl
  | cons b bytes ih =>
    simp only [hexEncode, flatMap_cons, length_append, length_cons,
      length_nil] at ih ⊢
    omega

theorem digitChar_utf8 (hn : n < 16) : (digitChar n).utf8Size = 1 ∧ digitChar n ≠ '.' := by
  have : ∀ n : Fin 16, (digitChar n).utf8Size = 1 ∧ digitChar n ≠ '.' := by decide
  exact this ⟨n, hn⟩

theorem hexEncode_char {bytes : List UInt8} (h : c ∈ hexEncode bytes) :
    c.utf8Size = 1 ∧ c ≠ '.' := by
  obtain ⟨b, -, hc⟩ := mem_flatMap.1 h
  have hb := b.toNat_lt
  simp only [mem_cons, not_mem_nil, or_false] at hc
  rcases hc with rfl | rfl
  · exact digitChar_utf8 (by omega)
  · exact digitChar_utf8 (by omega)

theorem utf8ByteSize_hexEncode (bytes : List UInt8) :
    (String.ofList (hexEncode bytes)).utf8ByteSize = 2 * bytes.length := by
  have : ∀ l : List Char, (∀ c ∈ l, c.utf8Size = 1) → (String.ofList l).utf8ByteSize = l.length := by
    intro l hl
    induction l with
    | nil => rfl
    | cons c l ih =>
      rw [String.ofList_cons, String.utf8ByteSize_append, ih fun d hd => hl d (by simp [hd])]
      simp [hl c (by simp), add_comm]
  rw [this _ fun c hc => (hexEncode_char hc).1, hexEncode_length]

theorem splitOnce_append {before : List Char} (after : String) (h : c ∉ before) :
    splitOnce c (String.ofList before ++ String.singleton c ++ after) =
      some (String.ofList before, after) := by
  have hspan : (before ++ c :: after.toList).span (· ≠ c) = (before, c :: after.toList) := by
    rw [span_eq_takeWhile_dropWhile, takeWhile_append_of_pos, dropWhile_append_of_pos]
    · simp
    · intro d hd
      simpa using fun (hdc : d = c) => h (hdc ▸ hd)
    · intro d hd
      simpa using fun (hdc : d = c) => h (hdc ▸ hd)
  have hlist : (String.ofList before ++ String.singleton c ++ after).toList =
      before ++ c :: after.toList := by simp
  rw [splitOnce, hlist, hspan]
  simp

theorem wellSigned_mint_iff (adminProof : String → String → String) {token : String}
    (htoken : token.isEmpty = false) (payload payload' : String) {nonce : List UInt8}
    (hnonce : nonce.length = 16) :
    wellSigned adminProof (some token) (mintFreshAdminProof adminProof token payload nonce) payload' ↔
      adminProof token (String.ofList (hexEncode nonce) ++ ":" ++ payload') =
        adminProof token (String.ofList (hexEncode nonce) ++ ":" ++ payload) := by
  have hdot : '.' ∉ hexEncode nonce := fun h => (hexEncode_char h).2 rfl
  have hmint : splitOnce '.' (mintFreshAdminProof adminProof token payload nonce) = _ :=
    splitOnce_append (adminProof token (String.ofList (hexEncode nonce) ++ ":" ++ payload)) hdot
  have hne : (mintFreshAdminProof adminProof token payload nonce).isEmpty = false := by
    simp [mintFreshAdminProof]
  rw [wellSigned, hne]
  simp only [Bool.false_eq_true, ↓reduceIte, htoken, adminProofSignatureValid, hmint,
    utf8ByteSize_hexEncode, hnonce, String.toList_ofList, hexDecode_hexEncode]
  simp [hnonce, secretsEqual_iff]

/-! ### The replay cache -/

def adminProofReplayTtl : Nat := 600 * 10 ^ 9

/-- `used_admin_proofs`: the instant each proof was entered at. -/
abbrev UsedProofs := String → Option Nat

/-- An entry from after `now` counts as fresh. -/
def purgeExpiredAdminProofs (used : UsedProofs) (now : Nat) : UsedProofs := fun proof =>
  (used proof).filter fun seenAt => now < seenAt ∨ now - seenAt < adminProofReplayTtl

/-- One lock section that spends a proof, as in `consume_admin_proof`. -/
def consumeAdminProof (used : UsedProofs) (now : Nat) (proof : String) : UsedProofs :=
  update (purgeExpiredAdminProofs used now) proof (some now)

def verifyAdminProof (adminProof : String → String → String) (apiToken : Option String)
    (used : UsedProofs) (now : Nat) (proof payload : String) : Bool × UsedProofs :=
  if wellSigned adminProof apiToken proof payload then
    let used := purgeExpiredAdminProofs used now
    if (used proof).isSome then (false, used)
    else if isJoinPayload payload then (true, used)
    else (true, update used proof (some now))
  else (false, used)

theorem purgeExpired_eq_some {used : UsedProofs} {now t : Nat} :
    purgeExpiredAdminProofs used now proof = some t ↔
      used proof = some t ∧ now < t + adminProofReplayTtl := by
  rw [purgeExpiredAdminProofs, filter_eq_some_iff]
  refine and_congr_right fun _ => ?_
  have : 0 < adminProofReplayTtl := by decide
  simp only [decide_eq_true_eq]
  omega

structure PendingJoinProof where
  nodeId : UInt64
  proof : String
  queuedAt : Nat
  deriving DecidableEq, Repr

def PendingJoinProof.expired (now : Nat) (e : PendingJoinProof) : Bool :=
  now < e.queuedAt ∨ adminProofReplayTtl ≤ now - e.queuedAt

/-- `spend_expired_join_proofs`: the entries that stay, and the proofs to spend. -/
def spendExpiredJoinProofs (pending : List PendingJoinProof) (now : Nat) :
    List PendingJoinProof × List String :=
  (pending.filter (!·.expired now), (pending.filter (·.expired now)).map (·.proof))

/-- `defer_join_proof_burn`: the new entries, and the proofs to spend. -/
def deferJoinProofBurn (pending : List PendingJoinProof) (now : Nat) (nodeId : UInt64)
    (proof : String) : List PendingJoinProof × List String :=
  let (kept, expired) := spendExpiredJoinProofs pending now
  let superseded := (kept.filter fun e => e.nodeId = nodeId ∧ e.proof ≠ proof).map (·.proof)
  (⟨nodeId, proof, now⟩ :: kept.filter (·.nodeId ≠ nodeId), expired ++ superseded)

theorem spendExpiredJoinProofs_mem :
    (∀ e ∈ (spendExpiredJoinProofs pending now).1, e ∈ pending) ∧
      ∀ p ∈ (spendExpiredJoinProofs pending now).2, ∃ e ∈ pending, e.proof = p := by
  constructor
  · intro e he
    exact (mem_filter.1 he).1
  · intro p hp
    obtain ⟨e, he, hep⟩ := mem_map.1 hp
    exact ⟨e, (mem_filter.1 he).1, hep⟩

theorem deferJoinProofBurn_mem {nodeId : UInt64} :
    (∀ e ∈ (deferJoinProofBurn pending now nodeId proof).1, e.proof = proof ∨ e ∈ pending) ∧
      ∀ p ∈ (deferJoinProofBurn pending now nodeId proof).2, ∃ e ∈ pending, e.proof = p := by
  obtain ⟨hkept, hexpired⟩ := @spendExpiredJoinProofs_mem pending now
  constructor
  · intro e he
    rcases mem_cons.1 he with rfl | he
    · exact .inl rfl
    · exact .inr (hkept e (mem_filter.1 he).1)
  · intro p hp
    rcases mem_append.1 hp with hp | hp
    · exact hexpired p hp
    · obtain ⟨e, he, hep⟩ := mem_map.1 hp
      exact ⟨e, hkept e (mem_filter.1 he).1, hep⟩

/-! ### Runs -/

/-- What the history of a node keeps: each presentation with its answer, and each time a join proof
is spent. -/
inductive ProofEvent where
  | presented (proof : String) (request : AdminRequest) (time : Nat) (accepted : Bool)
  | spent (proof : String) (time : Nat)

/-- `joining` are the joins whose proof was accepted and which `accept_join` is working on,
`burning` the proofs that were taken off `pending` and wait for the lock of `used`, with the instant
they will be entered at if it was read before. The history is newest first. -/
structure ProofState where
  clock : Nat
  used : UsedProofs
  pending : List PendingJoinProof
  joining : List (UInt64 × String)
  burning : List (String × Option Nat)
  history : List ProofEvent

def ProofState.start : ProofState := ⟨0, fun _ => none, [], [], [], []⟩

section Runs

variable (adminProof : String → String → String) (apiToken : Option String)

/-- A presentation: `verify_admin_proof`, and `accept_join` begins if a join was accepted. -/
def ProofState.present (s : ProofState) (proof : String) (r : AdminRequest) : ProofState :=
  let (accepted, used) := verifyAdminProof adminProof apiToken s.used s.clock proof r.payload
  { s with
    used := used
    joining :=
      match r with
      | .join nodeId _ _ => if accepted then (nodeId, proof) :: s.joining else s.joining
      | _ => s.joining
    history := .presented proof r s.clock accepted :: s.history }

/-- The lock sections of one node. Those of `defer_join_proof_burn` and of the other spending
functions that enter proofs in `used` are `spend` steps of their own, in any order. -/
inductive ProofStep : ProofState → ProofState → Prop
  | tick {s : ProofState} (clock : Nat) (h : s.clock ≤ clock) : ProofStep s { s with clock := clock }
  | present {s : ProofState} (proof : String) (r : AdminRequest) :
      ProofStep s (s.present adminProof apiToken proof r)
  | defer {s : ProofState} (nodeId : UInt64) (proof : String) (h : (nodeId, proof) ∈ s.joining) :
      ProofStep s
        { s with
          joining := s.joining.erase (nodeId, proof)
          pending := (deferJoinProofBurn s.pending s.clock nodeId proof).1
          burning := (deferJoinProofBurn s.pending s.clock nodeId proof).2.map (·, some s.clock)
            ++ s.burning }
  | expire {s : ProofState} :
      ProofStep s
        { s with
          pending := (spendExpiredJoinProofs s.pending s.clock).1
          burning := (spendExpiredJoinProofs s.pending s.clock).2.map (·, some s.clock)
            ++ s.burning }
  | heartbeat {s : ProofState} (e : PendingJoinProof) (h : e ∈ s.pending) :
      ProofStep s
        { s with
          pending := s.pending.filter (·.nodeId ≠ e.nodeId)
          burning := (e.proof, none) :: s.burning }
  | spend {s : ProofState} (proof : String) (t : Option Nat) (h : (proof, t) ∈ s.burning) :
      ProofStep s
        { s with
          used := consumeAdminProof s.used (t.getD s.clock) proof
          burning := s.burning.erase (proof, t)
          history := .spent proof (t.getD s.clock) :: s.history }

abbrev ProofRun := Relation.ReflTransGen (ProofStep adminProof apiToken)

end Runs

/-! ### Replays -/

/-- The later event accepts a proof again: one for another action that was accepted before, or one
for a join that was spent before. -/
def ProofEvent.Replays (later earlier : ProofEvent) : Prop :=
  ∃ proof r t, later = .presented proof r t true ∧
    if r.isJoin then ∃ t', earlier = .spent proof t'
    else ∃ r' t', earlier = .presented proof r' t' true ∧ r'.isJoin = false

def NoReplay (history : List ProofEvent) : Prop :=
  history.Pairwise fun later earlier => ¬ later.Replays earlier

/-- The proof an event enters in the cache, and the instant it is entered with. -/
def ProofEvent.entered : ProofEvent → Option (String × Nat)
  | .presented proof r t accepted => if accepted && !r.isJoin then some (proof, t) else none
  | .spent proof t => some (proof, t)

def lastEntered (proof : String) : List ProofEvent → Option Nat
  | [] => none
  | e :: history =>
    match e.entered with
    | some (p, t) => if p = proof then some t else lastEntered proof history
    | none => lastEntered proof history

/-- Every well-signed proof is presented less than ten minutes after it was last entered. -/
def InWindow (adminProof : String → String → String) (apiToken : Option String) :
    List ProofEvent → Prop
  | [] => True
  | .spent _ _ :: history => InWindow adminProof apiToken history
  | .presented proof r t _ :: history =>
    (wellSigned adminProof apiToken proof r.payload = true →
      ∀ t', lastEntered proof history = some t' → t < t' + adminProofReplayTtl) ∧
    InWindow adminProof apiToken history

/-- The keyed hash is not forged: no proof presented in the run is well signed for two payloads. -/
def Unforged (adminProof : String → String → String) (apiToken : Option String)
    (history : List ProofEvent) : Prop :=
  ∀ proof r r' t t' a a', .presented proof r t a ∈ history → .presented proof r' t' a' ∈ history →
    wellSigned adminProof apiToken proof r.payload = true →
    wellSigned adminProof apiToken proof r'.payload = true → r.payload = r'.payload

theorem Unforged.tail {e : ProofEvent} (h : Unforged adminProof apiToken (e :: history)) :
    Unforged adminProof apiToken history :=
  fun proof r r' t t' a a' hmem hmem' => h proof r r' t t' a a' (mem_cons_of_mem _ hmem)
    (mem_cons_of_mem _ hmem')

theorem Unforged.of_injective (hinj : ∀ token, Function.Injective (adminProof token))
    (history : List ProofEvent) : Unforged adminProof apiToken history :=
  fun _ _ _ _ _ _ _ _ _ hsig hsig' => wellSigned_payload hinj hsig hsig'

theorem lastEntered_ne_none :
    lastEntered proof history ≠ none ↔ ∃ e ∈ history, ∃ t, e.entered = some (proof, t) := by
  induction history with
  | nil => simp [lastEntered]
  | cons e history ih =>
    rw [lastEntered]
    cases he : e.entered with
    | none => simp [ih, he]
    | some pt =>
      obtain ⟨p, t⟩ := pt
      dsimp only
      split_ifs with hp
      · simp [he, hp]
      · rw [ih]
        simp [he, hp]

section Invariant

variable {adminProof : String → String → String} {apiToken : Option String}
variable {s : ProofState} {history : List ProofEvent} {used : UsedProofs} {e : ProofEvent}
  {p : String}

def ProofState.Joined (s : ProofState) (proof : String) : Prop :=
  ∃ r t, .presented proof r t true ∈ s.history ∧ r.isJoin = true

theorem ProofState.Joined.mono {s s' : ProofState} (hp : s.Joined p)
    (h : ∀ e ∈ s.history, e ∈ s'.history) : s'.Joined p := by
  obtain ⟨r, t, hmem, hjoin⟩ := hp
  exact ⟨r, t, h _ hmem, hjoin⟩

/-- The cache holds the last instant of every proof entered, unless ten minutes have passed since;
and only the proofs of accepted joins are deferred. -/
structure ProofInv (adminProof : String → String → String) (apiToken : Option String)
    (s : ProofState) : Prop where
  used : ∀ p t, s.used p = some t → lastEntered p s.history = some t
  forgotten : ∀ p t, lastEntered p s.history = some t →
    s.used p = some t ∨ t + adminProofReplayTtl ≤ s.clock
  signed : ∀ p r t, .presented p r t true ∈ s.history →
    wellSigned adminProof apiToken p r.payload = true
  captured : ∀ p t, (p, some t) ∈ s.burning → t ≤ s.clock
  joining : ∀ n p, (n, p) ∈ s.joining → s.Joined p
  pending : ∀ e ∈ s.pending, s.Joined e.proof
  burning : ∀ p t, (p, t) ∈ s.burning → s.Joined p
  spent : ∀ p t, .spent p t ∈ s.history → s.Joined p

theorem ProofInv.start : ProofInv adminProof apiToken .start where
  used := nofun
  forgotten := nofun
  signed := nofun
  captured := nofun
  joining := nofun
  pending := nofun
  burning := nofun
  spent := nofun

/-- What `verify_admin_proof` answers: the proof is well signed and was never entered, or was last
entered ten minutes ago. -/
theorem ProofInv.verify (hs : ProofInv adminProof apiToken s) (proof : String) (payload : String) :
    (verifyAdminProof adminProof apiToken s.used s.clock proof payload).1 ↔
      wellSigned adminProof apiToken proof payload ∧
        ∀ t, lastEntered proof s.history = some t → t + adminProofReplayTtl ≤ s.clock := by
  have hpurge : purgeExpiredAdminProofs s.used s.clock proof = none ↔
      ∀ t, lastEntered proof s.history = some t → t + adminProofReplayTtl ≤ s.clock := by
    rw [eq_none_iff_forall_ne_some]
    constructor
    · intro h t ht
      by_contra hlt
      rcases hs.forgotten proof t ht with hused | hold
      · exact h t (purgeExpired_eq_some.2 ⟨hused, by omega⟩)
      · exact hlt hold
    · intro h t ht
      obtain ⟨hused, hlt⟩ := purgeExpired_eq_some.1 ht
      have := h t (hs.used proof t hused)
      omega
  rw [verifyAdminProof]
  by_cases hsig : wellSigned adminProof apiToken proof payload = true
  · rw [if_pos hsig, ← hpurge, and_iff_right hsig]
    dsimp only
    cases hmem : purgeExpiredAdminProofs s.used s.clock proof with
    | none =>
      rw [if_neg (by simp)]
      split_ifs <;> simp
    | some t => simp
  · rw [if_neg hsig]
    simp [hsig]

/-- The cache after a presentation: purged, and with the proof entered if it is for another action
than a join. -/
theorem verifyAdminProof_used {now : Nat} {proof : String} (r : AdminRequest) :
    let v := verifyAdminProof adminProof apiToken used now proof r.payload
    v.2 = used ∧ v.1 = false ∨
      v.2 = purgeExpiredAdminProofs used now ∧ (v.1 && !r.isJoin) = false ∨
      v.2 = update (purgeExpiredAdminProofs used now) proof (some now) ∧
        (v.1 && !r.isJoin) = true := by
  dsimp only
  rw [verifyAdminProof, isJoinPayload_payload]
  by_cases hsig : wellSigned adminProof apiToken proof r.payload = true
  · rw [if_pos hsig]
    dsimp only
    cases (purgeExpiredAdminProofs used now proof).isSome <;> cases r.isJoin <;> simp
  · rw [if_neg hsig]
    simp

theorem lastEntered_cons_none (h : e.entered = none) (p : String) (history : List ProofEvent) :
    lastEntered p (e :: history) = lastEntered p history := by
  rw [lastEntered, h]

theorem lastEntered_cons_some {q : String} {t : Nat} (h : e.entered = some (q, t)) (p : String)
    (history : List ProofEvent) :
    lastEntered p (e :: history) = if q = p then some t else lastEntered p history := by
  rw [lastEntered, h]

/-- What a cache must be for `used` and `forgotten` to hold. -/
def CacheOk (used : UsedProofs) (history : List ProofEvent) (clock : Nat) : Prop :=
  (∀ p t, used p = some t → lastEntered p history = some t) ∧
    ∀ p t, lastEntered p history = some t → used p = some t ∨ t + adminProofReplayTtl ≤ clock

theorem CacheOk.purge {now clock : Nat} (h : CacheOk used history clock) (hnow : now ≤ clock) :
    CacheOk (purgeExpiredAdminProofs used now) history clock := by
  obtain ⟨hused, hforgotten⟩ := h
  constructor
  · intro p t ht
    exact hused p t (purgeExpired_eq_some.1 ht).1
  · intro p t ht
    rcases hforgotten p t ht with hp | hold
    · by_cases hfresh : now < t + adminProofReplayTtl
      · exact .inl (purgeExpired_eq_some.2 ⟨hp, hfresh⟩)
      · exact .inr (by omega)
    · exact .inr hold

theorem CacheOk.skip {clock : Nat} (h : CacheOk used history clock) (he : e.entered = none) :
    CacheOk used (e :: history) clock := by
  simpa only [CacheOk, lastEntered_cons_none he] using h

theorem CacheOk.enter {clock t : Nat} (h : CacheOk used history clock)
    (he : e.entered = some (p, t)) :
    CacheOk (update used p (some t)) (e :: history) clock := by
  obtain ⟨hused, hforgotten⟩ := h
  constructor
  · intro q t' ht'
    rw [lastEntered_cons_some he]
    by_cases hq : q = p
    · rw [hq, update_self] at ht'
      rw [if_pos hq.symm, ht']
    · rw [update_of_ne hq] at ht'
      rw [if_neg (Ne.symm hq), hused q t' ht']
  · intro q t' ht'
    rw [lastEntered_cons_some he] at ht'
    by_cases hq : q = p
    · rw [if_pos hq.symm] at ht'
      exact .inl (by rw [hq, update_self, ht'])
    · rw [if_neg (Ne.symm hq)] at ht'
      rw [update_of_ne hq]
      exact hforgotten q t' ht'

theorem ProofInv.cacheOk (hs : ProofInv adminProof apiToken s) :
    CacheOk s.used s.history s.clock := ⟨hs.used, hs.forgotten⟩

theorem ProofInv.present (hs : ProofInv adminProof apiToken s) (proof : String) (r : AdminRequest) :
    ProofInv adminProof apiToken (s.present adminProof apiToken proof r) := by
  have hverify := hs.verify proof r.payload
  have hcases := @verifyAdminProof_used adminProof apiToken s.used s.clock proof r
  rw [ProofState.present]
  generalize verifyAdminProof adminProof apiToken s.used s.clock proof r.payload = v at *
  obtain ⟨accepted, used⟩ := v
  dsimp only at hverify hcases ⊢
  have hcache : CacheOk used (.presented proof r s.clock accepted :: s.history) s.clock := by
    rcases hcases with ⟨rfl, rfl⟩ | ⟨rfl, hjoin⟩ | ⟨rfl, hjoin⟩
    · exact hs.cacheOk.skip rfl
    · exact (hs.cacheOk.purge le_rfl).skip (by simp [ProofEvent.entered, hjoin])
    · exact (hs.cacheOk.purge le_rfl).enter (by simp [ProofEvent.entered, hjoin])
  have hmono : ∀ e ∈ s.history, e ∈ ProofEvent.presented proof r s.clock accepted :: s.history :=
    fun _ he => mem_cons_of_mem _ he
  refine ⟨hcache.1, hcache.2, ?_, hs.captured, ?_, fun e he => (hs.pending e he).mono hmono,
    fun p t hp => (hs.burning p t hp).mono hmono, ?_⟩
  · intro p r' t hmem
    rcases mem_cons.1 hmem with heq | hmem
    · obtain ⟨rfl, rfl, rfl, rfl⟩ := ProofEvent.presented.inj heq
      exact (hverify.1 rfl).1
    · exact hs.signed p r' t hmem
  · intro n p hp
    cases r with
    | join nodeId controlAddr mediaAddr =>
      cases accepted with
      | false => exact (hs.joining n p hp).mono hmono
      | true =>
        rcases mem_cons.1 hp with heq | hp
        · obtain ⟨rfl, rfl⟩ := Prod.mk.inj heq
          exact ⟨_, _, mem_cons_self, rfl⟩
        · exact (hs.joining n p hp).mono hmono
    | _ => exact (hs.joining n p hp).mono hmono
  · intro p t hmem
    rcases mem_cons.1 hmem with heq | hmem
    · cases heq
    · exact (hs.spent p t hmem).mono hmono

theorem ProofInv.setAside (hs : ProofInv adminProof apiToken s) {joining : List (UInt64 × String)}
    {pending : List PendingJoinProof} {spend : List String}
    (hjoining : ∀ x ∈ joining, x ∈ s.joining) (hpending : ∀ e ∈ pending, s.Joined e.proof)
    (hspend : ∀ p ∈ spend, s.Joined p) :
    ProofInv adminProof apiToken
      { s with
        joining := joining
        pending := pending
        burning := spend.map (·, some s.clock) ++ s.burning } := by
  refine ⟨hs.used, hs.forgotten, hs.signed, ?_, fun n p hp => hs.joining n p (hjoining _ hp),
    hpending, ?_, hs.spent⟩
  · intro p t hp
    rcases mem_append.1 hp with hp | hp
    · obtain ⟨q, -, heq⟩ := mem_map.1 hp
      obtain ⟨-, heq⟩ := Prod.mk.inj heq
      exact (some.inj heq).symm.le
    · exact hs.captured p t hp
  · intro p t hp
    rcases mem_append.1 hp with hp | hp
    · obtain ⟨q, hq, heq⟩ := mem_map.1 hp
      obtain ⟨rfl, -⟩ := Prod.mk.inj heq
      exact hspend q hq
    · exact hs.burning p t hp

theorem ProofInv.step {s s' : ProofState} (hs : ProofInv adminProof apiToken s)
    (h : ProofStep adminProof apiToken s s') : ProofInv adminProof apiToken s' := by
  cases h with
  | tick clock hclock =>
    refine ⟨hs.used, ?_, hs.signed, ?_, hs.joining, hs.pending, hs.burning, hs.spent⟩
    · intro p t ht
      exact (hs.forgotten p t ht).imp_right fun hold => hold.trans hclock
    · intro p t hp
      exact (hs.captured p t hp).trans hclock
  | present proof r => exact hs.present proof r
  | defer nodeId proof hmem =>
    obtain ⟨hkept, hspend⟩ := @deferJoinProofBurn_mem s.pending proof s.clock nodeId
    refine hs.setAside (fun x hx => mem_of_mem_erase hx) ?_ ?_
    · intro e he
      rcases hkept e he with heq | he
      · rw [heq]
        exact hs.joining nodeId proof hmem
      · exact hs.pending e he
    · intro p hp
      obtain ⟨e, he, rfl⟩ := hspend p hp
      exact hs.pending e he
  | expire =>
    obtain ⟨hkept, hspend⟩ := @spendExpiredJoinProofs_mem s.pending s.clock
    refine hs.setAside (fun _ hx => hx) (fun e he => hs.pending e (hkept e he)) ?_
    intro p hp
    obtain ⟨e, he, rfl⟩ := hspend p hp
    exact hs.pending e he
  | heartbeat e he =>
    refine ⟨hs.used, hs.forgotten, hs.signed, ?_, hs.joining,
      fun e' he' => hs.pending e' (mem_filter.1 he').1, ?_, hs.spent⟩
    · intro p t hp
      rcases mem_cons.1 hp with heq | hp
      · cases heq
      · exact hs.captured p t hp
    · intro p t hp
      rcases mem_cons.1 hp with heq | hp
      · obtain ⟨rfl, -⟩ := Prod.mk.inj heq
        exact hs.pending e he
      · exact hs.burning p t hp
  | spend proof t hmem =>
    have hle : t.getD s.clock ≤ s.clock := by
      cases t with
      | none => exact le_rfl
      | some t => exact hs.captured proof t hmem
    have hcache := (hs.cacheOk.purge hle).enter
      (e := .spent proof (t.getD s.clock)) (p := proof) (t := t.getD s.clock) rfl
    have hmono : ∀ e ∈ s.history, e ∈ ProofEvent.spent proof (t.getD s.clock) :: s.history :=
      fun _ he => mem_cons_of_mem _ he
    refine ⟨hcache.1, hcache.2, ?_, fun p t' hp => hs.captured p t' (mem_of_mem_erase hp),
      fun n p hp => (hs.joining n p hp).mono hmono, fun e he => (hs.pending e he).mono hmono,
      fun p t' hp => (hs.burning p t' (mem_of_mem_erase hp)).mono hmono, ?_⟩
    · intro p r t' hmem'
      rcases mem_cons.1 hmem' with heq | hmem'
      · cases heq
      · exact hs.signed p r t' hmem'
    · intro p t' hmem'
      rcases mem_cons.1 hmem' with heq | hmem'
      · obtain ⟨rfl, -⟩ := ProofEvent.spent.inj heq
        exact (hs.burning p t hmem).mono hmono
      · exact (hs.spent p t' hmem').mono hmono

theorem ProofInv.run (h : ProofRun adminProof apiToken .start s) :
    ProofInv adminProof apiToken s := by
  induction h with
  | refl => exact .start
  | tail _ hstep ih => exact ih.step hstep

theorem ProofInv.replays_iff (hs : ProofInv adminProof apiToken s)
    (proof : String) (r : AdminRequest)
    (hone : ∀ r' t, .presented proof r' t true ∈ s.history →
      wellSigned adminProof apiToken proof r.payload → r.payload = r'.payload) :
    (∀ e ∈ s.history, ¬ (ProofEvent.presented proof r s.clock
        (verifyAdminProof adminProof apiToken s.used s.clock proof r.payload).1).Replays e) ↔
      (wellSigned adminProof apiToken proof r.payload →
        ∀ t, lastEntered proof s.history = some t → s.clock < t + adminProofReplayTtl) := by
  have hverify := hs.verify proof r.payload
  constructor
  · intro hno hsig t ht
    by_contra hold
    have haccepted := hverify.2 ⟨hsig, fun t' ht' => by
      obtain rfl := some.inj (ht.symm.trans ht')
      omega⟩
    obtain ⟨e, hmem, t', he⟩ := lastEntered_ne_none.1 (by rw [ht]; simp : _ ≠ none)
    refine hno e hmem ⟨proof, r, s.clock, by rw [haccepted], ?_⟩
    -- the entry is of the same payload, so of the same kind
    cases e with
    | presented p r' t₀ accepted =>
      cases accepted with
      | false => cases he
      | true =>
        cases hjoin : r'.isJoin with
        | true => simp [ProofEvent.entered, hjoin] at he
        | false =>
          simp only [ProofEvent.entered, hjoin, Bool.not_false, Bool.and_self, ↓reduceIte,
            some.injEq, Prod.mk.injEq] at he
          obtain ⟨rfl, rfl⟩ := he
          have hsame := hone r' t₀ hmem hsig
          have hr : r.isJoin = false := by
            rw [← isJoinPayload_payload, hsame, isJoinPayload_payload, hjoin]
          rw [hr]
          exact ⟨r', t₀, rfl, hjoin⟩
    | spent p t₀ =>
      obtain ⟨rfl, rfl⟩ := Prod.mk.inj (some.inj he)
      obtain ⟨r', t₁, hmem', hjoin⟩ := hs.spent p t₀ hmem
      have hsame := hone r' t₁ hmem' hsig
      have hr : r.isJoin = true := by
        rw [← isJoinPayload_payload, hsame, isJoinPayload_payload, hjoin]
      rw [hr]
      exact ⟨t₀, rfl⟩
  · rintro hwindow e hmem ⟨p, r', t, heq, hkind⟩
    obtain ⟨rfl, rfl, rfl, haccepted⟩ := ProofEvent.presented.inj heq
    obtain ⟨hsig, hold⟩ := hverify.1 haccepted
    have hentered : ∃ t, e.entered = some (proof, t) := by
      split_ifs at hkind with hjoin
      · obtain ⟨t', rfl⟩ := hkind
        exact ⟨t', rfl⟩
      · obtain ⟨r', t', rfl, hjoin'⟩ := hkind
        exact ⟨t', by simp [ProofEvent.entered, hjoin']⟩
    obtain ⟨t, ht⟩ := ne_none_iff_exists'.1 (lastEntered_ne_none.2 ⟨e, hmem, hentered⟩)
    have := hold t ht
    have := hwindow hsig t ht
    omega

/-- **Replay of admin proofs.** No proof for another action than a join is accepted twice, and no
proof for a join after it was spent, exactly when every well-signed proof is presented less than ten
minutes after the node last entered it. -/
theorem no_replay_iff_in_window {s : ProofState} (h : ProofRun adminProof apiToken .start s)
    (hone : Unforged adminProof apiToken s.history) :
    NoReplay s.history ↔ InWindow adminProof apiToken s.history := by
  induction h with
  | refl => exact ⟨fun _ => trivial, fun _ => .nil⟩
  | @tail s₀ s' hrun hstep ih =>
    have hs := ProofInv.run hrun
    cases hstep with
    | present proof r =>
      have hone₀ : ∀ r' t, .presented proof r' t true ∈ s₀.history →
          wellSigned adminProof apiToken proof r.payload = true → r.payload = r'.payload :=
        fun r' t hmem hsig => hone proof r r' _ t _ true mem_cons_self
          (mem_cons_of_mem _ hmem) hsig (hs.signed proof r' t hmem)
      show NoReplay (_ :: s₀.history) ↔ InWindow adminProof apiToken (_ :: s₀.history)
      rw [NoReplay, pairwise_cons, InWindow]
      exact and_congr (hs.replays_iff proof r hone₀) (ih hone.tail)
    | spend proof t hmem =>
      show NoReplay (_ :: s₀.history) ↔ InWindow adminProof apiToken (_ :: s₀.history)
      rw [NoReplay, pairwise_cons, InWindow, and_iff_right]
      · exact ih hone.tail
      · rintro e - ⟨p, r, t', heq, -⟩
        cases heq
    | _ => exact ih hone

end Invariant

/-! ### Runs of a small cluster -/

/-- A stand-in for the keyed hash that has no collisions. -/
def plainProof (token payload : String) : String := token ++ payload

theorem plainProof_injective (token : String) : Function.Injective (plainProof token) :=
  fun _ _ h => (String.append_right_inj token).1 h

def drainProof : String :=
  mintFreshAdminProof plainProof "t" (AdminRequest.adminDrain 1).payload (List.replicate 16 7)

theorem drainProof_wellSigned :
    wellSigned plainProof (some "t") drainProof (AdminRequest.adminDrain 1).payload = true :=
  (wellSigned_mint_iff plainProof (by decide) _ _ rfl).2 rfl

theorem drainProof_run (again : Nat) :
    ProofRun plainProof (some "t") .start
      ({ ProofState.start.present plainProof (some "t") drainProof (.adminDrain 1) with
          clock := again }.present plainProof (some "t") drainProof (.adminDrain 1)) :=
  .tail (.tail (.single (.present drainProof (.adminDrain 1))) (.tick again (zero_le _)))
    (.present drainProof (.adminDrain 1))

theorem drainProof_history (again : Nat) :
    ({ ProofState.start.present plainProof (some "t") drainProof (.adminDrain 1) with
        clock := again }.present plainProof (some "t") drainProof (.adminDrain 1)).history =
      [.presented drainProof (.adminDrain 1) again (decide (adminProofReplayTtl ≤ again)),
        .presented drainProof (.adminDrain 1) 0 true] := by
  have hjoin : isJoinPayload (AdminRequest.adminDrain 1).payload = false :=
    isJoinPayload_payload (.adminDrain 1)
  have hfirst : verifyAdminProof plainProof (some "t") (fun _ => none) 0 drainProof
      (AdminRequest.adminDrain 1).payload =
        (true, update (fun _ => none) drainProof (some 0)) := by
    rw [verifyAdminProof, if_pos drainProof_wellSigned, hjoin]
    rfl
  have hsecond : (verifyAdminProof plainProof (some "t")
      (update (fun _ => none) drainProof (some 0)) again drainProof
      (AdminRequest.adminDrain 1).payload).1 = decide (adminProofReplayTtl ≤ again) := by
    rw [verifyAdminProof, if_pos drainProof_wellSigned, hjoin]
    by_cases h : adminProofReplayTtl ≤ again
    · simp [purgeExpiredAdminProofs, h, not_lt.2 h]
    · simp [purgeExpiredAdminProofs, h, not_le.1 h]
  simp only [ProofState.present, ProofState.start, hfirst, hsecond]

theorem no_replay_drained :
    NoReplay [.presented drainProof (.adminDrain 1) 1 (decide (adminProofReplayTtl ≤ 1)),
      .presented drainProof (.adminDrain 1) 0 true] := by
  have h := no_replay_iff_in_window (drainProof_run 1) (.of_injective plainProof_injective _)
  rw [drainProof_history 1] at h
  refine h.2 ⟨fun _ t ht => ?_, fun _ t ht => ?_, trivial⟩
  · obtain rfl : 0 = t := by simpa [lastEntered, ProofEvent.entered, AdminRequest.isJoin] using ht
    decide
  · cases ht

/-- Ten minutes after the node was drained, the captured proof drains it again. -/
theorem drain_proof_replayed :
    ¬ ∀ s, ProofRun plainProof (some "t") .start s → NoReplay s.history := by
  intro h
  have h := h _ (drainProof_run adminProofReplayTtl)
  rw [drainProof_history, NoReplay, pairwise_cons] at h
  refine h.1 (.presented drainProof (.adminDrain 1) 0 true) (by simp) ?_
  exact ⟨drainProof, .adminDrain 1, adminProofReplayTtl, by simp, .adminDrain 1, 0, rfl, rfl⟩

/-- **A minted proof serves what it was minted for**, and no other payload whose hash is another, while
it is not in the replay cache. -/
theorem minted_proof_accepted_iff (token p q : String) (htoken : token.isEmpty = false)
    (nonce : List UInt8) (hnonce : nonce.length = 16)
    (hhash : adminProof token (String.ofList (hexEncode nonce) ++ ":" ++ q) =
      adminProof token (String.ofList (hexEncode nonce) ++ ":" ++ p) → q = p) (used : UsedProofs) :
    (verifyAdminProof adminProof (some token) used now
        (mintFreshAdminProof adminProof token p nonce) q).1 = true ↔
      q = p ∧ purgeExpiredAdminProofs used now (mintFreshAdminProof adminProof token p nonce) = none := by
  have hmint := wellSigned_mint_iff adminProof htoken p q hnonce
  by_cases hq : q = p
  · subst hq
    have hsigned := hmint.2 rfl
    cases hused : purgeExpiredAdminProofs used now (mintFreshAdminProof adminProof token q nonce) with
    | none => cases hjoin : isJoinPayload q <;> simp [verifyAdminProof, hsigned, hused, hjoin]
    | some seenAt => simp [verifyAdminProof, hsigned, hused]
  · simp [verifyAdminProof, mt hhash hq, hmint, hq]

theorem minted_proof_accepted_iff_drain :
    (verifyAdminProof (· ++ ·) (some "t") (fun _ => none) 0 (mintFreshAdminProof (· ++ ·) "t"
      "AdminDrain:1" (replicate 16 0)) "AdminResume:1").1 ≠ true := by
  refine fun h => absurd ((minted_proof_accepted_iff _ _ _ rfl _ rfl (fun h => ?_) _).1 h).1 (by decide)
  exact (String.append_right_inj _).1 ((String.append_right_inj _).1 h)

end RtmpServer
