/-!
# Why peer-wire bytes are refused

Faults met while reading peer-wire messages, bitfields and frames, with their texts.
-/

namespace BitTorrent

namespace Peer

/-- The reasons a message, bitfield or frame is refused. -/
inductive PeerError where
  /-- A malformed message, described in words. -/
  | invalidMessage (reason : String)
  /-- A message id outside 0 to 9. -/
  | invalidMessageId (id : UInt8)
  /-- A message whose length does not fit the layout of its kind. -/
  | invalidLength (kind : String) (len : Nat)
  /-- A bitfield of the wrong size or with a padding bit set. -/
  | invalidBitfield (reason : String)
  /-- A frame announcing more bytes than the decoder accepts. -/
  | frameTooLarge (len max : Nat)
deriving DecidableEq, Repr

namespace PeerError

/-- The name of the cause. -/
def name : PeerError → String
  | invalidMessage _ => "InvalidMessage"
  | invalidMessageId _ => "InvalidMessageId"
  | invalidLength .. => "InvalidLength"
  | invalidBitfield _ => "InvalidBitfield"
  | frameTooLarge .. => "FrameTooLarge"

/-- The text of the fault. -/
def message : PeerError → String
  | invalidMessage r => "invalid message: " ++ r
  | invalidMessageId i => "invalid message id: " ++ toString i.toNat
  | invalidLength k n => "invalid length " ++ toString n ++ " for " ++ k ++ " message"
  | invalidBitfield r => "invalid bitfield: " ++ r
  | frameTooLarge n m => "frame of " ++ toString n ++ " bytes exceeds limit of " ++ toString m

end PeerError

end Peer

end BitTorrent
