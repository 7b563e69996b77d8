import Mathlib.Data.List.Basic

/-!
# Media-plane messages

The messages of `cluster/media/protocol.rs`. How they are framed on the wire depends on the
negotiated version; the queues and the hub only see the messages.
-/

namespace RtmpServer

/-- The congestion class librtmp2 gives a frame at export. -/
inductive DeliveryHint where
  | critical
  | resyncPoint
  | droppable
  deriving DecidableEq, Repr

/-- `StatsResp.body` is kept as the text of its JSON. -/
inductive MediaMessage where
  | hello (version : UInt16) (nodeId : UInt64)
  | authChallenge (nonce : List UInt8)
  | auth (nodeId : UInt64) (response : String)
  | authOk
  | authFail
  | subscribe (app stream : String) (epoch generation : UInt64)
  | unsubscribe (app stream : String)
  | streamStart (app stream : String) (epoch ownerNode : UInt64)
  | streamStop (app stream : String) (epoch : UInt64)
  | initCache (app stream : String) (epoch : UInt64) (metadata avcHeader aacHeader : Option (List UInt8))
      (keyframe : Option (UInt32 × List UInt8))
  | mediaFrame (app stream : String) (epoch : UInt64) (frameType : UInt8)
      (timestamp timelineTs : UInt32) (hint : DeliveryHint) (payload : List UInt8)
  | error (code message : String) (generation : UInt64)
  | statsReq (streamId : String)
  | statsResp (streamId body : String)
  deriving DecidableEq, Repr

abbrev StreamKey := String × String

def MediaMessage.approxSize : MediaMessage → Nat
  | .mediaFrame _ _ _ _ _ _ _ payload => payload.length + 64
  | .initCache _ _ _ metadata avcHeader aacHeader keyframe =>
    (metadata.map List.length).getD 0 + (avcHeader.map List.length).getD 0
      + (aacHeader.map List.length).getD 0 + (keyframe.map (·.2.length)).getD 0 + 64
  | _ => 128

theorem MediaMessage.approxSize_pos (msg : MediaMessage) : 0 < msg.approxSize := by
  cases msg <;> simp [approxSize]

end RtmpServer
