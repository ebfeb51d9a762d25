import BitTorrent.Bencode.Error

/-!
# Why a tree is not a torrent

Reading a torrent fails with the first fault found. Validation faults name the dictionary
(`root`, `info`, `files[3]`) and the field involved, and `MetainfoError.message` gives the
text.
-/

namespace BitTorrent

namespace Torrent

/-- The reasons a buffer or tree is not a valid torrent. -/
inductive MetainfoError where
  /-- The buffer is not bencode. -/
  | bencode (e : Bencode.DecodeError)
  /-- A required field is absent. -/
  | missingField (dict field : String)
  /-- A field holds a value of the wrong kind. -/
  | invalidType (dict field expected found : String)
  /-- A byte string that must be text is not UTF-8. -/
  | invalidUtf8 (dict field : String)
  /-- A count or length is negative. -/
  | negativeValue (dict field : String)
  /-- `piece length` is zero. -/
  | invalidPieceLength
  /-- `pieces` is not a whole number of 20-byte digests. -/
  | invalidPiecesLength (len : Nat)
  /-- `private` is neither 0 nor 1. -/
  | invalidPrivate (value : Int)
  /-- An `md5sum` is not 32 hex digits. -/
  | invalidMd5sum (dict : String)
  /-- The info dictionary has neither `length` nor `files`. -/
  | neitherFileMode
  /-- The info dictionary has both `length` and `files`. -/
  | bothFileModes
  /-- A file's `path` list is empty. -/
  | emptyPath (dict : String)
  /-- The info value has no span inside the buffer given. -/
  | infoSpanOutOfBounds
  /-- An info hash of the wrong length or not hex. -/
  | invalidInfoHash
deriving DecidableEq, Repr

namespace MetainfoError

/-- The name of the cause. -/
def name : MetainfoError → String
  | bencode _ => "Bencode"
  | missingField .. => "MissingField"
  | invalidType .. => "InvalidType"
  | invalidUtf8 .. => "InvalidUtf8"
  | negativeValue .. => "NegativeValue"
  | invalidPieceLength => "InvalidPieceLength"
  | invalidPiecesLength _ => "InvalidPiecesLength"
  | invalidPrivate _ => "InvalidPrivate"
  | invalidMd5sum _ => "InvalidMd5sum"
  | neitherFileMode => "NeitherFileMode"
  | bothFileModes => "BothFileModes"
  | emptyPath _ => "EmptyPath"
  | infoSpanOutOfBounds => "InfoSpanOutOfBounds"
  | invalidInfoHash => "InvalidInfoHash"

/-- The text of the failure. -/
def message : MetainfoError → String
  | bencode e => "bencode error: " ++ e.message
  | missingField d f => "missing field '" ++ f ++ "' in " ++ d
  | invalidType d f e k => "field '" ++ f ++ "' in " ++ d ++ " must be a " ++ e ++ ", found " ++ k
  | invalidUtf8 d f => "field '" ++ f ++ "' in " ++ d ++ " is not valid UTF-8"
  | negativeValue d f => "field '" ++ f ++ "' in " ++ d ++ " must not be negative"
  | invalidPieceLength => "piece length must be greater than zero"
  | invalidPiecesLength n => "pieces length " ++ toString n ++ " is not a multiple of 20"
  | invalidPrivate v => "field 'private' must be 0 or 1, not " ++ toString v
  | invalidMd5sum d => "invalid md5sum format in " ++ d
  | neitherFileMode => "info dictionary has neither 'length' nor 'files'"
  | bothFileModes => "info dictionary has both 'length' and 'files'"
  | emptyPath d => "empty path in " ++ d
  | infoSpanOutOfBounds => "info dictionary span does not lie within the source buffer"
  | invalidInfoHash => "invalid info hash"

end MetainfoError

end Torrent

end BitTorrent
