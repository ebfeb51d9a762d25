import BitTorrent.Proofs.Torrent.Reading
import BitTorrent.Proofs.Bencode.Tree
import Mathlib.Algebra.GroupWithZero.Nat

/-!
# The total length of a torrent

`Metainfo.totalLength?` sums the file lengths in 64 bits; past them there is no total (`none`),
as the sum traps on overflow. A torrent read from a tree takes every file length from an integer
of the tree (`TorrentOf`), and a tree the format can hold (`Node.Valid`) has only signed 64-bit
integers, so every file is shorter than `2^63` bytes: one or two files always have a total, the
exact sum of their lengths. Three files need not: two of `2^63 - 1` bytes and one of 2 make an
accepted torrent whose lengths sum to `2^64` (`three_files_overflow_total`).

## Main statements

* `TorrentOf.length_lt`: every file of a tree the format can hold is shorter than `2^63` bytes.
* `totalLength_of_accepted`: the total is the exact sum when it fits, and always for two files.
* `three_files_overflow_total`: an accepted torrent whose total overflows.
-/

namespace BitTorrent

namespace Bencode

/-- A value of a dictionary the format can hold is a tree it can hold. -/
theorem Node.Valid.field {x : Node} (hx : x.Valid) {d : Dict} (hd : x.asDict? = some d) {k : Bytes}
    {v : Node} (hv : Dict.find? k d = some v) : v.Valid := by
  cases x with
  | dict es sp =>
    cases hd
    exact ((Node.validEntries_iff.1 hx.2) (k, v) (Dict.find?_mem hv)).2
  | _ => cases hd

/-- An item of a list the format can hold is a tree it can hold. -/
theorem Node.Valid.item {x : Node} (hx : x.Valid) {l : List Node} (hl : x.asList? = some l)
    {y : Node} (hy : y ∈ l) : y.Valid := by
  cases x with
  | list items sp =>
    cases hl
    exact Node.validItems_iff.1 hx y hy
  | _ => cases hl

/-- An integer the format can hold is at most `2^63 - 1`. -/
theorem Node.Valid.int_le {x : Node} (hx : x.Valid) {i : Int} (hi : x.asInt? = some i) :
    i ≤ intMax := by
  cases x with
  | int v sp =>
    cases hi
    exact hx.2
  | _ => cases hi

end Bencode

namespace Torrent

open Bencode Bytes

/-- A count of a tree the format can hold is below `2^63`. -/
theorem count_lt_of_valid {x : Node} (hx : x.Valid) {n : Nat} (hn : IsCount x n) : n < 2 ^ 63 := by
  have h := hx.int_le hn
  have hmax : intMax = 2 ^ 63 - 1 := rfl
  rw [hmax] at h
  omega

/-- Each file of a torrent read from a tree the format can hold is shorter than `2^63` bytes. -/
theorem TorrentOf.length_lt {root : Node} {m : Metainfo} (hv : root.Valid) (h : TorrentOf root m) :
    ∀ f ∈ m.files, f.length < 2 ^ 63 := by
  obtain ⟨top, info, ⟨htop, x, hx, hinfo⟩, -, hfiles⟩ := h
  -- the info dictionary is a tree the format can hold, and so is every value below it
  have hxv : x.Valid := hv.field htop hx
  intro f hf
  cases hm : m.mode with
  | single =>
    -- the one file's length is the info dictionary's `length`
    rw [hm] at hfiles
    obtain ⟨-, len, md5, ⟨y, hy, hlen⟩, -, hfs⟩ := hfiles
    rw [hfs, List.mem_singleton] at hf
    subst hf
    exact count_lt_of_valid (hxv.field hinfo hy) hlen
  | multiple =>
    -- each file's length is the `length` of its own entry of `files`
    rw [hm] at hfiles
    obtain ⟨-, es, ⟨z, hz, hes⟩, hall⟩ := hfiles
    obtain ⟨e, he, d, hd, hfields⟩ := exists_entry_of_mem_files hall hf
    obtain ⟨y, hy, hlen⟩ := hfields.length
    have hev : e.Valid := (hxv.field hinfo hz).item hes he
    exact count_lt_of_valid (hev.field hd hy) hlen

/-- The total length is the sum of the file lengths when that sum fits in 64 bits, and there is
none otherwise. -/
theorem totalLength?_eq (m : Metainfo) :
    m.totalLength? = if (m.files.map FileEntry.length).sum < 2 ^ 64 then
      some (m.files.map FileEntry.length).sum else none := rfl

/-- The total length of an accepted torrent. Read from a tree the format can hold, every file is
shorter than `2^63` bytes; the total is the exact sum of the file lengths exactly when that sum
fits in 64 bits; and a torrent of at most two files always has it. -/
theorem totalLength_of_accepted (root : Node) (hv : root.Valid) (m : Metainfo)
    (h : Metainfo.parse root = .ok m) :
    (∀ f ∈ m.files, f.length < 2 ^ 63) ∧
    (m.totalLength? = some (m.files.map FileEntry.length).sum ↔
      (m.files.map FileEntry.length).sum < 2 ^ 64) ∧
    (m.files.length ≤ 2 → m.totalLength? = some (m.files.map FileEntry.length).sum) := by
  have hlt := (Metainfo.parse_eq_ok_iff.1 h).length_lt hv
  have hexact : m.totalLength? = some (m.files.map FileEntry.length).sum ↔
      (m.files.map FileEntry.length).sum < 2 ^ 64 := by
    rw [totalLength?_eq]
    split_ifs with hfit
    · exact ⟨fun _ => hfit, fun _ => rfl⟩
    · exact ⟨fun h => h.elim, fun h => absurd h hfit⟩
  refine ⟨hlt, hexact, fun htwo => hexact.2 ?_⟩
  -- at most two lengths, each below `2^63`, sum to less than `2^64`
  rcases hfs : m.files with _ | ⟨a, _ | ⟨b, _ | ⟨c, rest⟩⟩⟩
  · decide
  · have ha := hlt a (by simp [hfs])
    simp only [List.map_cons, List.map_nil, List.sum_cons, List.sum_nil]
    omega
  · have ha := hlt a (by simp [hfs])
    have hb := hlt b (by simp [hfs])
    simp only [List.map_cons, List.map_nil, List.sum_cons, List.sum_nil]
    omega
  · rw [hfs] at htwo
    simp at htwo

/-- A one-file torrent of five bytes, accepted from a tree the format can hold, has five bytes in
all. -/
theorem one_file_total_length :
    Node.Valid (.dict [(ofString "announce", .str (ofString "a") none),
        (ofString "info", .dict [(ofString "length", .int 5 none),
          (ofString "name", .str (ofString "a.txt") none),
          (ofString "piece length", .int 16384 none),
          (ofString "pieces", .str (List.replicate 20 97) none)] none)] none) ∧
    Metainfo.parse (.dict [(ofString "announce", .str (ofString "a") none),
        (ofString "info", .dict [(ofString "length", .int 5 none),
          (ofString "name", .str (ofString "a.txt") none),
          (ofString "piece length", .int 16384 none),
          (ofString "pieces", .str (List.replicate 20 97) none)] none)] none) =
      .ok { name := "a.txt", pieceLength := 16384, pieces := List.replicate 20 97, isPrivate := false,
            mode := .single, files := [⟨5, none, ["a.txt"]⟩], announce := "a", announceTiers := none,
            creationDate := none, comment := none, createdBy := none, encoding := none } ∧
    Metainfo.totalLength?
      { name := "a.txt", pieceLength := 16384, pieces := List.replicate 20 97, isPrivate := false,
        mode := .single, files := [⟨5, none, ["a.txt"]⟩], announce := "a", announceTiers := none,
        creationDate := none, comment := none, createdBy := none, encoding := none } = some 5 := by
  have hv : Node.Valid (.dict [(ofString "announce", .str (ofString "a") none),
        (ofString "info", .dict [(ofString "length", .int 5 none),
          (ofString "name", .str (ofString "a.txt") none),
          (ofString "piece length", .int 16384 none),
          (ofString "pieces", .str (List.replicate 20 97) none)] none)] none) := by
    simp only [Node.Valid, Node.ValidEntries, SortedKeys]
    decide +kernel
  have hp : Metainfo.parse (.dict [(ofString "announce", .str (ofString "a") none),
        (ofString "info", .dict [(ofString "length", .int 5 none),
          (ofString "name", .str (ofString "a.txt") none),
          (ofString "piece length", .int 16384 none),
          (ofString "pieces", .str (List.replicate 20 97) none)] none)] none) =
      .ok { name := "a.txt", pieceLength := 16384, pieces := List.replicate 20 97, isPrivate := false,
            mode := .single, files := [⟨5, none, ["a.txt"]⟩], announce := "a", announceTiers := none,
            creationDate := none, comment := none, createdBy := none, encoding := none } := by
    decide +kernel
  exact ⟨hv, hp, (totalLength_of_accepted _ hv _ hp).2.2 (by decide)⟩

/-- Two files of `2^63 - 1` bytes and one of 2 make a torrent accepted from a tree the format can
hold, and their lengths sum to `2^64`: the total length overflows. -/
theorem three_files_overflow_total :
    ∃ m, Node.Valid (.dict [(ofString "announce", .str (ofString "a") none),
        (ofString "info", .dict [
          (ofString "files", .list [
            .dict [(ofString "length", .int 9223372036854775807 none),
              (ofString "path", .list [.str (ofString "a") none] none)] none,
            .dict [(ofString "length", .int 9223372036854775807 none),
              (ofString "path", .list [.str (ofString "b") none] none)] none,
            .dict [(ofString "length", .int 2 none),
              (ofString "path", .list [.str (ofString "c") none] none)] none] none),
          (ofString "name", .str (ofString "n") none),
          (ofString "piece length", .int 1 none),
          (ofString "pieces", .str [] none)] none)] none) ∧
      Metainfo.parse (.dict [(ofString "announce", .str (ofString "a") none),
        (ofString "info", .dict [
          (ofString "files", .list [
            .dict [(ofString "length", .int 9223372036854775807 none),
              (ofString "path", .list [.str (ofString "a") none] none)] none,
            .dict [(ofString "length", .int 9223372036854775807 none),
              (ofString "path", .list [.str (ofString "b") none] none)] none,
            .dict [(ofString "length", .int 2 none),
              (ofString "path", .list [.str (ofString "c") none] none)] none] none),
          (ofString "name", .str (ofString "n") none),
          (ofString "piece length", .int 1 none),
          (ofString "pieces", .str [] none)] none)] none) = .ok m ∧
      m.totalLength? = none := by
  refine ⟨
    { name := "n", pieceLength := 1, pieces := [], isPrivate := false, mode := .multiple,
      files := [⟨9223372036854775807, none, ["n", "a"]⟩, ⟨9223372036854775807, none, ["n", "b"]⟩,
        ⟨2, none, ["n", "c"]⟩],
      announce := "a", announceTiers := none, creationDate := none, comment := none,
      createdBy := none, encoding := none }, ?_, ?_, ?_⟩
  · simp only [Node.Valid, Node.ValidItems, Node.ValidEntries, SortedKeys]
    decide +kernel
  · decide +kernel
  · decide

end Torrent

end BitTorrent
