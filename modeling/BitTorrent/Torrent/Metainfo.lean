import BitTorrent.Bytes.Basic

/-!
# Torrent descriptors

A `Metainfo` is what a torrent file says once validated: the name, the piece length and the
pieces' digests, whether the torrent is private, its files, and its trackers. It is built
once from a decoded tree (see `Metainfo.parse`) and never changed.

## Main definitions

* `Metainfo`, `FileEntry`, `FileMode`.
* `Metainfo.totalLength?`: the sum of the file lengths, `none` past 64 bits.
* `Metainfo.pieceHash?`: the digest of one piece.
* `Metainfo.trackers`: the announce URL and every tier URL, first occurrences only.
* `Metainfo.display`: the multi-line summary.
-/

namespace BitTorrent

namespace Torrent

/-- Whether the info dictionary described one file or a directory of files. -/
inductive FileMode where
  /-- A `length` directly in the info dictionary. -/
  | single
  /-- A `files` list in the info dictionary. -/
  | multiple
deriving DecidableEq, Repr

/-- One file of a torrent. -/
structure FileEntry where
  length : Nat
  /-- 32 hex digits, when the creator supplied them. -/
  md5sum : Option String
  /-- Path segments, the torrent's name first. -/
  path : List String
deriving DecidableEq, Repr

/-- A validated torrent descriptor. -/
structure Metainfo where
  /-- Suggested file or directory name. -/
  name : String
  /-- Bytes per piece, never zero. -/
  pieceLength : Nat
  /-- The pieces' SHA-1 digests, twenty bytes each, concatenated. -/
  pieces : Bytes
  /-- Clients should use only the trackers named here. -/
  isPrivate : Bool
  mode : FileMode
  /-- The files in order; every path starts with `name`. -/
  files : List FileEntry
  /-- The primary tracker URL. -/
  announce : String
  /-- Tiers of further tracker URLs. -/
  announceTiers : Option (List (List String))
  /-- Seconds since the Unix epoch when the torrent was made. -/
  creationDate : Option Nat
  comment : Option String
  createdBy : Option String
  /-- The character encoding the creator declared for the text fields. -/
  encoding : Option String
deriving DecidableEq, Repr

/-- The largest length a 64-bit counter holds is `2^64 - 1`. -/
def wordBound : Nat := Nat.pow 2 64

/-- The text of the fault when a sum of lengths leaves the 64-bit range. -/
def overflowMessage : String := "attempt to add with overflow"

namespace FileEntry

/-- `File[len: n, path: a/b]`, with `, md5sum: m` before the bracket when there is one. -/
def display (f : FileEntry) : String :=
  "File[len: " ++ toString f.length ++ ", path: " ++ "/".intercalate f.path ++
    (match f.md5sum with
     | some m => ", md5sum: " ++ m
     | none => "") ++ "]"

end FileEntry

namespace Metainfo

/-- Whether the torrent is a single file. -/
def isSingleFile (m : Metainfo) : Bool := m.mode == .single

/-- The sum of all file lengths, or `none` when it does not fit in 64 bits. -/
def totalLength? (m : Metainfo) : Option Nat :=
  let total := (m.files.map FileEntry.length).foldr (· + ·) 0
  if total < wordBound then some total else none

/-- The number of whole 20-byte digests in `pieces`. -/
def pieceCount (m : Metainfo) : Nat := m.pieces.length / 20

/-- The digest of piece `index`: bytes `20 * index` up to `20 * index + 20` of `pieces`, if
they lie inside it and their positions fit in 64 bits. -/
def pieceHash? (m : Metainfo) (index : Nat) : Option Bytes :=
  let start := index * 20
  let stop := start + 20
  if stop < wordBound ∧ stop ≤ m.pieces.length then some ((m.pieces.drop start).take 20)
  else none

/-- Adds the URLs not yet present, in order. -/
def addNew (seen : List String) (urls : List String) : List String :=
  urls.foldl (fun acc u => if acc.contains u then acc else acc ++ [u]) seen

/-- The announce URL, then every tier URL in order, each URL only at its first occurrence. -/
def trackers (m : Metainfo) : List String :=
  addNew [m.announce] (m.announceTiers.getD []).flatten

/-- A line of the summary: two spaces, the text, a line feed. -/
def line (s : String) : String := "  " ++ s ++ "\n"

/-- An optional line of the summary. -/
def optLine (label : String) : Option String → String
  | some v => line (label ++ ": " ++ v)
  | none => ""

/-- The multi-line summary of a torrent. -/
def display (m : Metainfo) : String :=
  "\x7b\n" ++
  line ("name: " ++ m.name) ++
  line ("piece length: " ++ toString m.pieceLength) ++
  line ("pieces: " ++ toString m.pieceCount ++ " digests") ++
  line ("private: " ++ toString m.isPrivate) ++
  line ("announce: " ++ m.announce) ++
  (match m.announceTiers with
   | some tiers =>
     line "announce list: [" ++
     String.join (tiers.map fun t => line ("  [ " ++ " ".intercalate t ++ " ]")) ++
     line "]"
   | none => "") ++
  optLine "creation date" (m.creationDate.map toString) ++
  optLine "comment" m.comment ++
  optLine "created by" m.createdBy ++
  optLine "encoding" m.encoding ++
  line "files: [" ++
  String.join (m.files.map fun f => line ("  " ++ f.display)) ++
  line "]" ++
  "\x7d"

end Metainfo

/-- Whether a text is exactly 32 hex digits of either case. -/
def isValidMd5sum (s : String) : Bool :=
  let b := Bytes.ofString s
  b.length == 32 && b.all fun c =>
    (48 ≤ c && c ≤ 57) || (65 ≤ c && c ≤ 70) || (97 ≤ c && c ≤ 102)

end Torrent

end BitTorrent
