import BitTorrent.Bencode.Read
import BitTorrent.Bencode.Write
import BitTorrent.Torrent.Fields
import BitTorrent.Torrent.Metainfo
import BitTorrent.Torrent.InfoHash

/-!
# From a decoded tree to a torrent

`Metainfo.parse` checks a decoded tree field by field, in a fixed order, and reports the
first fault: the info dictionary and its piece length, pieces and private flag, the name,
the announce URL and its tiers, the optional creation date and texts, and last the files.
The info hash digests the exact bytes the info value was read from (`Metainfo.infoHash`);
digesting a fresh encoding (`Metainfo.infoHashReencoded`) gives the same name only when
the source listed every key of the info value in order.

## Main definitions

* `Metainfo.parse`: a validated torrent from a tree.
* `Metainfo.infoHash`, `Metainfo.infoHashReencoded`: the two digests of the info value.
* `Metainfo.fromBytes`: decode, validate and name a torrent file.
-/

namespace BitTorrent

namespace Torrent

open Bencode

/-- The root of a torrent viewed as a dictionary. -/
def rootFields (root : Node) : Except MetainfoError Fields := Fields.wrap root "root" "torrent" "root"

/-- An optional md5sum field, which must be 32 hex digits when present. -/
def readMd5sum (f : Fields) : Except MetainfoError (Option String) := do
  match ← f.opt "md5sum" Fields.text with
  | some s => if isValidMd5sum s then .ok (some s) else .error (.invalidMd5sum f.context)
  | none => .ok none

/-- The tiers of `announce-list`: lists of UTF-8 URL strings. -/
def readTiers (tiers : List Node) : Except MetainfoError (List (List String)) :=
  tiers.mapM fun tier => do
    let urls ← match tier.asList? with
      | some l => .ok l
      | none => .error (.invalidType "root" "announce-list" "list" tier.kind)
    urls.mapM fun url => do
      let b ← match url.asBytes? with
        | some b => .ok b
        | none => .error (.invalidType "root" "announce-list" "string" url.kind)
      Fields.utf8 "root" "announce-list" b

/-- Entry `index` of `files`: its length, md5sum and non-empty path, the torrent's name put
before the path's segments. -/
def readFileEntry (name : String) (index : Nat) (entry : Node) :
    Except MetainfoError FileEntry := do
  let context := "files[" ++ toString index ++ "]"
  let f ← Fields.wrap entry context "info" "files"
  let length ← f.need "length" Fields.count
  let md5sum ← readMd5sum f
  let segments ← f.need "path" Fields.list
  if segments.isEmpty then throw (.emptyPath context)
  let path ← segments.mapM fun s => do
    let b ← match s.asBytes? with
      | some b => .ok b
      | none => .error (.invalidType context "path" "string" s.kind)
    Fields.utf8 context "path" b
  return { length, md5sum, path := name :: path }

/-- The files of the info dictionary, and whether it described one file or several. -/
def readFiles (info : Fields) (name : String) : Except MetainfoError (FileMode × List FileEntry) :=
  match info.contains "length", info.contains "files" with
  | true, true => .error .bothFileModes
  | false, false => .error .neitherFileMode
  | true, false => do
    let length ← info.need "length" Fields.count
    let md5sum ← readMd5sum info
    return (.single, [{ length, md5sum, path := [name] }])
  | false, true => do
    let entries ← info.need "files" Fields.list
    let files ← (entries.zipIdx).mapM fun (e, i) => readFileEntry name i e
    return (.multiple, files)

namespace Metainfo

/-- Validates a decoded tree as a torrent. -/
def parse (root : Node) : Except MetainfoError Metainfo := do
  let top ← rootFields root
  let info ← top.child "info"
  let pieceLength ← info.need "piece length" Fields.count
  if pieceLength = 0 then throw .invalidPieceLength
  let pieces ← info.need "pieces" Fields.bytes
  if pieces.length % 20 ≠ 0 then throw (.invalidPiecesLength pieces.length)
  let isPrivate ← match ← info.opt "private" Fields.int with
    | none => pure false
    | some v => if v = 0 then pure false else if v = 1 then pure true else throw (.invalidPrivate v)
  let name ← info.need "name" Fields.text
  let announce ← top.need "announce" Fields.text
  let announceTiers ← match ← top.opt "announce-list" Fields.list with
    | some tiers => some <$> readTiers tiers
    | none => pure none
  let creationDate ← top.opt "creation date" Fields.count
  let comment ← top.opt "comment" Fields.text
  let createdBy ← top.opt "created by" Fields.text
  let encoding ← top.opt "encoding" Fields.text
  let (mode, files) ← readFiles info name
  return { name, pieceLength, pieces, isPrivate, mode, files, announce, announceTiers,
           creationDate, comment, createdBy, encoding }

/-- The info value of a torrent's root, which must be a dictionary. -/
def infoNode (root : Node) : Except MetainfoError Node := do
  let top ← rootFields root
  let _ ← top.child "info"
  top.required "info"

/-- The info hash over the exact bytes the info value occupied in `buffer`, the buffer the
root was read from. -/
def infoHash (H : Hasher) (root : Node) (buffer : Bytes) : Except MetainfoError InfoHash := do
  let info ← infoNode root
  match info.raw? buffer with
  | some raw => .ok (InfoHash.ofInfoBytes H raw)
  | none => .error .infoSpanOutOfBounds

/-- The info hash over a canonical encoding of the info value. -/
def infoHashReencoded (H : Hasher) (root : Node) : Except MetainfoError InfoHash := do
  let info ← infoNode root
  .ok (InfoHash.ofInfoBytes H info.encode)

/-- Decodes a torrent file, validates it and names it by its info hash. -/
def fromBytes (H : Hasher) (data : Bytes) : Except MetainfoError (Metainfo × InfoHash) := do
  let root ← match Node.decode data with
    | .ok n => .ok n
    | .error e => .error (.bencode e)
  let m ← parse root
  let h ← infoHash H root data
  return (m, h)

end Metainfo

end Torrent

end BitTorrent
