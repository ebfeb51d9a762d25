import BitTorrent.Bytes.Hex
import BitTorrent.Digest.Sha1
import BitTorrent.Url.Percent
import BitTorrent.Torrent.Error

/-!
# Info hashes

A torrent is named by the SHA-1 digest of its bencoded info dictionary: twenty bytes, shown
as forty lower-case hex digits and sent to trackers percent-encoded. The digest is a parameter
(`Hasher`), of which nothing is assumed but the length of its results; `Hasher.sha1` is the one
the program runs with.
-/

namespace BitTorrent

namespace Torrent

/-- A digest function with twenty-byte results, the part SHA-1 plays in naming a torrent. -/
structure Hasher where
  digest : Bytes → Bytes
  length_digest : ∀ m, (digest m).length = 20

/-- SHA-1 as a `Hasher`. -/
def Hasher.sha1 : Hasher := ⟨Sha1.digest, Sha1.length_digest⟩

/-- The 20-byte SHA-1 digest that names a torrent. -/
structure InfoHash where
  bytes : Bytes
  length_bytes : bytes.length = 20

namespace InfoHash

/-- The digest of an info dictionary's bytes. -/
def ofInfoBytes (H : Hasher) (info : Bytes) : InfoHash := ⟨H.digest info, H.length_digest info⟩

/-- Takes exactly twenty bytes as an info hash. -/
def ofBytes? (b : Bytes) : Except MetainfoError InfoHash :=
  if h : b.length = 20 then .ok ⟨b, h⟩ else .error .invalidInfoHash

/-- Reads forty hex digits of either case as an info hash. -/
def ofHex? (s : String) : Except MetainfoError InfoHash :=
  match Bytes.ofHex? s with
  | some b => ofBytes? b
  | none => .error .invalidInfoHash

/-- Forty lower-case hex digits. -/
def toHex (h : InfoHash) : String := Bytes.toHex h.bytes

/-- The percent-encoded form, ready for a tracker query string. -/
def urlEncoded (L : Percent.Library) (h : InfoHash) : String := Percent.encode L h.bytes

/-- The debugging form `InfoHash(<hex>)`. -/
def debugText (h : InfoHash) : String := "InfoHash(" ++ h.toHex ++ ")"

end InfoHash

end Torrent

end BitTorrent
