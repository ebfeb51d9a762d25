import BitTorrent.Torrent.Validation
import BitTorrent.Proofs.Bencode.ReadSteps
import Mathlib.Tactic.SplitIfs

/-!
# Reading a decoded torrent

`Metainfo.parse` checks a tree field by field. This module says, without the reader's steps,
which trees it accepts and as what (`TorrentOf`): the root and its `info` entry are dictionaries;
`info` holds a positive `piece length`, `pieces` of whole 20-byte digests, a `private` flag that
is absent, 0 or 1, and a UTF-8 `name`; the root holds a UTF-8 `announce`, and optionally tiers
of UTF-8 URLs, a creation date and three texts; and `info` holds exactly one of `length` (one
file, named by the torrent) and `files` (one file per entry, each with a count `length`, an
md5sum of 32 hex digits when present, and a non-empty path of UTF-8 segments put after the
torrent's name). Every number kept is an integer of the tree that is not negative.

Each typed field reader is described once by the relation it decides between a field's value
and what it reads (`Fields.Reads`); required and optional fields then follow from one lemma
each (`Fields.need_eq_ok`, `Fields.opt_eq_ok`).

## Main definitions

* `Fields.Reads`, `Required`, `Optional`: field readers and the fields they accept.
* `PrivateFlag`, `IsTiers`, `Md5Sum`, `FileOf`, `FilesOf`, `HeaderOf`, `TorrentOf`.
* `ValidTorrent`: what an accepted torrent promises about its tree.

## Main statements

* `Metainfo.parse_eq`: the reading in its parts.
* `Metainfo.parse_eq_ok_iff`: a tree reads as `m` exactly when it says `m`.
* `parsed_torrents_valid`: accepted torrents are valid, and a valid header with both or neither
  file mode is refused as such.
-/

namespace BitTorrent.Torrent

open Bencode Bytes

/-! ## Section 1: Fields and what they read as -/

section Fields

variable {α : Type}

/-- The field `key` of the entries `d` is present, and `R` relates its value to `a`. -/
def Required (d : Dict) (key : String) (R : Node → α → Prop) (a : α) : Prop :=
  ∃ x, Dict.find? (ofString key) d = some x ∧ R x a

/-- An optional field read as `v`: absent and `none`, or present and read as `a`, `v = some a`. -/
def Optional (d : Dict) (key : String) (R : Node → α → Prop) : Option α → Prop
  | none => Dict.find? (ofString key) d = none
  | some a => Required d key R a

/-- An integer node. -/
def IsInt (x : Node) (i : Int) : Prop := x.asInt? = some i

/-- An integer node holding the natural number `n`: a count, never negative. -/
def IsCount (x : Node) (n : Nat) : Prop := x.asInt? = some (n : Int)

/-- A byte-string node. -/
def IsBytes (x : Node) (b : Bytes) : Prop := x.asBytes? = some b

/-- A byte-string node of well-formed UTF-8. -/
def IsText (x : Node) (s : String) : Prop := x.asText? = some s

/-- A list node. -/
def IsList (x : Node) (l : List Node) : Prop := x.asList? = some l

namespace Fields

/-- `read` reads a field's value `x` as `a` exactly when `R x a`, whatever the dictionary and
the field: only its failures name them. -/
def Reads (read : Fields → String → Node → Except MetainfoError α) (R : Node → α → Prop) : Prop :=
  ∀ f field x a, read f field x = .ok a ↔ R x a

variable {read : Fields → String → Node → Except MetainfoError α} {R : Node → α → Prop}

theorem required_eq_ok {f : Fields} {field : String} {x : Node} :
    f.required field = .ok x ↔ Dict.find? (ofString field) f.entries = some x := by
  unfold required Fields.find?
  rcases Dict.find? (ofString field) f.entries with _ | y <;> simp

theorem need_eq_ok (h : Reads read R) {f : Fields} {field : String} {a : α} :
    f.need field read = .ok a ↔ Required f.entries field R a := by
  simp only [need, bind, Except.bind_eq_ok, required_eq_ok, Required]
  exact exists_congr fun x => and_congr_right fun _ => h f field x a

theorem opt_eq_ok (h : Reads read R) {f : Fields} {field : String} {v : Option α} :
    f.opt field read = .ok v ↔ Optional f.entries field R v := by
  unfold opt Fields.find?
  rcases hx : Dict.find? (ofString field) f.entries with _ | x
  · -- an absent field is read as nothing
    cases v <;> simp [Optional, Required, hx]
  · -- a present field is read by `read`
    dsimp only
    cases v with
    | none =>
      simp only [Optional, hx, reduceCtorEq, iff_false]
      cases read f field x <;> simp [Functor.map, Except.map]
    | some a =>
      simp only [Optional, Required, hx, Option.some.injEq, exists_eq_left', ← h f field x a]
      cases read f field x <;> simp [Functor.map, Except.map]

theorem reads_int : Reads Fields.int IsInt := by
  intro f field x i
  unfold Fields.int IsInt
  rcases x.asInt? with _ | j <;> simp

theorem reads_count : Reads Fields.count IsCount := by
  intro f field x n
  unfold count IsCount
  rw [show f.int field x = Fields.int f field x from rfl]
  rcases hx : Fields.int f field x with e | i
  · -- a value that is not an integer
    have : x.asInt? = none := by
      unfold Fields.int at hx
      rcases hi : x.asInt? with _ | j <;> simp_all
    simp [bind, Except.bind, this]
  · have hi : x.asInt? = some i := (reads_int f field x i).1 hx
    simp only [bind, Except.bind, hi, Option.some.injEq]
    -- a negative integer is refused, any other is its own count
    split_ifs with hneg
    · simp only [false_iff]
      omega
    · simp only [Except.ok.injEq]
      omega

theorem reads_bytes : Reads Fields.bytes IsBytes := by
  intro f field x b
  unfold Fields.bytes IsBytes
  rcases x.asBytes? with _ | c <;> simp

theorem utf8_eq_ok {context field : String} {b : Bytes} {s : String} :
    utf8 context field b = .ok s ↔ Utf8.decode? b = some s := by
  unfold utf8
  rcases Utf8.decode? b with _ | t <;> simp

theorem reads_text : Reads Fields.text IsText := by
  intro f field x s
  unfold Fields.text IsText Node.asText?
  rcases hb : x.asBytes? with _ | b
  · simp [Fields.bytes, hb, bind, Except.bind]
  · simp [Fields.bytes, hb, bind, Except.bind, utf8_eq_ok]

theorem reads_list : Reads Fields.list IsList := by
  intro f field x l
  unfold Fields.list IsList
  rcases x.asList? with _ | k <;> simp

theorem wrap_eq_ok {n : Node} {context parent field : String} {g : Fields} :
    wrap n context parent field = .ok g ↔ ∃ d, n.asDict? = some d ∧ g = ⟨d, context⟩ := by
  unfold wrap
  rcases n.asDict? with _ | d <;> simp [eq_comm]

theorem child_eq_ok {f g : Fields} {field : String} :
    f.child field = .ok g ↔ ∃ x d, Dict.find? (ofString field) f.entries = some x ∧
      x.asDict? = some d ∧ g = ⟨d, field⟩ := by
  simp only [child, bind, Except.bind_eq_ok, required_eq_ok, wrap_eq_ok, exists_and_left]

theorem contains_eq {f : Fields} {field : String} :
    f.contains field = (Dict.find? (ofString field) f.entries).isSome := rfl

end Fields

end Fields

/-! ## Section 2: What the fields of a torrent say -/

/-- The private flag read as `b`: absent, 0 or 1, and set exactly when it is 1. -/
def PrivateFlag (info : Dict) (b : Bool) : Prop :=
  ∃ v, Optional info "private" IsInt v ∧ (v = none ∨ v = some 0 ∨ v = some 1) ∧
    (b = true ↔ v = some 1)

/-- The tiers of `announce-list`, each a list of UTF-8 URLs, mirrored tier by tier. -/
def IsTiers (x : Node) (tiers : List (List String)) : Prop :=
  ∃ l, IsList x l ∧ List.Forall₂ (fun tier urls => ∃ us, IsList tier us ∧ List.Forall₂ IsText us urls)
    l tiers

/-- An md5sum read as `v`: absent, or UTF-8 text of 32 hex digits. -/
def Md5Sum (d : Dict) (v : Option String) : Prop :=
  Optional d "md5sum" (fun x s => IsText x s ∧ isValidMd5sum s = true) v

/-- The fields of one file's dictionary, read as the file `f` of the torrent named `name`: a
count `length`, an md5sum, and a non-empty `path` of UTF-8 segments that follow the name. -/
structure FileFields (name : String) (d : Dict) (f : FileEntry) : Prop where
  length : Required d "length" IsCount f.length
  md5sum : Md5Sum d f.md5sum
  path : ∃ segs texts, Required d "path" IsList segs ∧ segs ≠ [] ∧
    List.Forall₂ IsText segs texts ∧ f.path = name :: texts

/-- An entry of `files` read as the file `f` of the torrent named `name`. -/
def FileOf (name : String) (entry : Node) (f : FileEntry) : Prop :=
  ∃ d, entry.asDict? = some d ∧ FileFields name d f

/-- The files of an info dictionary, read under the torrent's name: with `length` and without
`files`, the one file the torrent names; with `files` and without `length`, one file per entry. -/
def FilesOf (info : Dict) (name : String) : FileMode → List FileEntry → Prop
  | .single, files => Dict.find? (ofString "files") info = none ∧
    ∃ len md5, Required info "length" IsCount len ∧ Md5Sum info md5 ∧ files = [⟨len, md5, [name]⟩]
  | .multiple, files => Dict.find? (ofString "length") info = none ∧
    ∃ es, Required info "files" IsList es ∧ List.Forall₂ (FileOf name) es files

/-- Every field checked before the files, read from the root's entries `top` and the info
dictionary `info` as `m`'s. -/
structure HeaderOf (top info : Dict) (m : Metainfo) : Prop where
  pieceLength : Required info "piece length" IsCount m.pieceLength
  pieceLength_pos : 0 < m.pieceLength
  pieces : Required info "pieces" IsBytes m.pieces
  pieces_whole : m.pieces.length % 20 = 0
  isPrivate : PrivateFlag info m.isPrivate
  name : Required info "name" IsText m.name
  announce : Required top "announce" IsText m.announce
  announceTiers : Optional top "announce-list" IsTiers m.announceTiers
  creationDate : Optional top "creation date" IsCount m.creationDate
  comment : Optional top "comment" IsText m.comment
  createdBy : Optional top "created by" IsText m.createdBy
  encoding : Optional top "encoding" IsText m.encoding

/-- The root is a dictionary with entries `top`, whose `info` is a dictionary with entries
`info`. -/
def InfoOf (root : Node) (top info : Dict) : Prop :=
  root.asDict? = some top ∧ ∃ x, Dict.find? (ofString "info") top = some x ∧ x.asDict? = some info

/-- A tree that says the torrent `m`. -/
def TorrentOf (root : Node) (m : Metainfo) : Prop :=
  ∃ top info, InfoOf root top info ∧ HeaderOf top info m ∧ FilesOf info m.name m.mode m.files

/-! ## Section 3: Reading the parts -/

/-- The piece length: a count, which must not be zero. -/
def checkedPieceLength (info : Fields) : Except MetainfoError Nat := do
  let n ← info.need "piece length" Fields.count
  if n = 0 then throw .invalidPieceLength
  pure n

/-- The pieces: bytes, which must be whole 20-byte digests. -/
def checkedPieces (info : Fields) : Except MetainfoError Bytes := do
  let pieces ← info.need "pieces" Fields.bytes
  if pieces.length % 20 ≠ 0 then throw (.invalidPiecesLength pieces.length)
  pure pieces

/-- The private flag: absent, 0 or 1. -/
def readPrivate (info : Fields) : Except MetainfoError Bool := do
  match ← info.opt "private" Fields.int with
  | none => pure false
  | some v => if v = 0 then pure false else if v = 1 then pure true else throw (.invalidPrivate v)

/-- The optional tiers of `announce-list`. -/
def readAnnounceList (top : Fields) : Except MetainfoError (Option (List (List String))) := do
  match ← top.opt "announce-list" Fields.list with
  | some tiers => some <$> readTiers tiers
  | none => pure none

namespace Metainfo

/-- The reading of a torrent is: the root and its info dictionary, each checked header field in
turn, and last the files. -/
theorem parse_eq (root : Node) : parse root = (do
    let top ← rootFields root
    let info ← top.child "info"
    let pieceLength ← checkedPieceLength info
    let pieces ← checkedPieces info
    let isPrivate ← readPrivate info
    let name ← info.need "name" Fields.text
    let announce ← top.need "announce" Fields.text
    let announceTiers ← readAnnounceList top
    let creationDate ← top.opt "creation date" Fields.count
    let comment ← top.opt "comment" Fields.text
    let createdBy ← top.opt "created by" Fields.text
    let encoding ← top.opt "encoding" Fields.text
    let (mode, files) ← readFiles info name
    return { name, pieceLength, pieces, isPrivate, mode, files, announce, announceTiers,
             creationDate, comment, createdBy, encoding }) := by
  unfold parse checkedPieceLength checkedPieces readPrivate readAnnounceList
  congr 1; funext top; congr 1; funext info
  simp only [bind_assoc]
  -- each check refuses on both sides alike, and past it both go on with the same value
  congr 1; funext n
  split_ifs with h0
  · rfl
  simp only [pure_bind]
  congr 1; funext pieces
  split_ifs with h20
  · rfl
  simp only [pure_bind]
  congr 1; funext o
  -- the flag's three accepted values lead to the same reading of the fields after it
  rcases o with _ | v <;> dsimp only
  on_goal 2 => split_ifs
  on_goal 4 => rfl
  all_goals
    simp only [pure_bind]
    congr 1; funext name; congr 1; funext announce
    congr 1; funext tiers?
    rcases tiers? with _ | tiers <;> rfl

end Metainfo

theorem rootFields_eq_ok {root : Node} {top : Fields} :
    rootFields root = .ok top ↔ ∃ d, root.asDict? = some d ∧ top = ⟨d, "root"⟩ :=
  Fields.wrap_eq_ok

theorem checkedPieceLength_eq_ok {info : Fields} {n : Nat} :
    checkedPieceLength info = .ok n ↔ Required info.entries "piece length" IsCount n ∧ 0 < n := by
  unfold checkedPieceLength
  rw [← Fields.need_eq_ok Fields.reads_count]
  rcases info.need "piece length" Fields.count with e | k
  · simp [bind, Except.bind]
  · -- a zero piece length is refused
    by_cases hk : k = 0
    · simp only [bind, Except.bind, hk, if_true, throw, throwThe, MonadExceptOf.throw, reduceCtorEq,
        Except.ok.injEq, false_iff, not_and]
      omega
    · simp only [bind, Except.bind, hk, if_false, pure, Except.pure, Except.ok.injEq]
      omega

theorem checkedPieces_eq_ok {info : Fields} {p : Bytes} :
    checkedPieces info = .ok p ↔ Required info.entries "pieces" IsBytes p ∧ p.length % 20 = 0 := by
  unfold checkedPieces
  rw [← Fields.need_eq_ok Fields.reads_bytes]
  rcases info.need "pieces" Fields.bytes with e | q
  · simp [bind, Except.bind]
  · -- pieces that are not whole digests are refused
    by_cases hq : q.length % 20 = 0
    · simp only [bind, Except.bind, hq, ne_eq, not_true_eq_false, if_false, pure, Except.pure,
        Except.ok.injEq]
      constructor
      · intro hqp
        exact ⟨hqp, hqp ▸ hq⟩
      · intro h
        exact h.1
    · simp only [bind, Except.bind, hq, ne_eq, not_false_eq_true, if_true, throw, throwThe,
        MonadExceptOf.throw, reduceCtorEq, Except.ok.injEq, false_iff, not_and]
      intro hqp
      exact hqp ▸ hq

theorem readPrivate_eq_ok {info : Fields} {b : Bool} :
    readPrivate info = .ok b ↔ PrivateFlag info.entries b := by
  unfold readPrivate PrivateFlag
  simp only [bind, Except.bind_eq_ok, Fields.opt_eq_ok Fields.reads_int]
  apply exists_congr
  intro v
  apply and_congr_right
  intro _
  -- the flag is read as false when absent or 0, as true when 1, and refused otherwise
  rcases v with _ | i
  · cases b <;> simp [pure, Except.pure]
  · by_cases h0 : i = 0
    · cases b <;> simp [h0, pure, Except.pure]
    · by_cases h1 : i = 1
      · cases b <;> simp [h1, pure, Except.pure]
      · simp [h0, h1, throw, throwThe, MonadExceptOf.throw]

/-- The tiers read as exactly the lists of their URLs' texts. -/
theorem readTiers_eq_ok {tiers : List Node} {ts : List (List String)} :
    readTiers tiers = .ok ts ↔
      List.Forall₂ (fun tier urls => ∃ us, IsList tier us ∧ List.Forall₂ IsText us urls) tiers ts := by
  unfold readTiers
  -- one tier: a list of URLs
  refine mapM_eq_ok_iff_of fun tier urls => ?_
  unfold IsList
  rcases tier.asList? with _ | us
  · simp [bind, Except.bind]
  · simp only [bind, Except.bind, Option.some.injEq, exists_eq_left']
    -- one URL: a byte string of UTF-8
    refine mapM_eq_ok_iff_of fun url s => ?_
    unfold IsText Node.asText?
    rcases url.asBytes? with _ | b <;> simp [bind, Fields.utf8_eq_ok]

theorem readAnnounceList_eq_ok {top : Fields} {t : Option (List (List String))} :
    readAnnounceList top = .ok t ↔ Optional top.entries "announce-list" IsTiers t := by
  unfold readAnnounceList
  simp only [bind, Except.bind_eq_ok, Fields.opt_eq_ok Fields.reads_list]
  -- the field is absent exactly when no tiers are read, and else a list of tiers read one by one
  constructor
  · rintro ⟨_ | l, hl, h⟩
    · cases h
      exact hl
    · obtain ⟨ts, hts, rfl⟩ := Except.map_eq_ok.1 h
      obtain ⟨x, hx, hxl⟩ := hl
      exact ⟨x, hx, l, hxl, readTiers_eq_ok.1 hts⟩
  · intro h
    rcases t with _ | ts
    · exact ⟨none, h, rfl⟩
    · obtain ⟨x, hx, l, hxl, hts⟩ := h
      exact ⟨some l, ⟨x, hx, hxl⟩, Except.map_eq_ok.2 ⟨ts, readTiers_eq_ok.2 hts, rfl⟩⟩

theorem readMd5sum_eq_ok {f : Fields} {v : Option String} :
    readMd5sum f = .ok v ↔ Md5Sum f.entries v := by
  unfold readMd5sum Md5Sum
  simp only [bind, Except.bind_eq_ok, Fields.opt_eq_ok Fields.reads_text]
  -- a present md5sum must be 32 hex digits
  constructor
  · rintro ⟨_ | s, hs, h⟩
    · cases h
      exact hs
    · dsimp only at h
      split_ifs at h with hvalid
      cases h
      obtain ⟨x, hx, ht⟩ := hs
      exact ⟨x, hx, ht, hvalid⟩
  · intro h
    rcases v with _ | s
    · exact ⟨none, h, rfl⟩
    · obtain ⟨x, hx, ht, hvalid⟩ := h
      exact ⟨some s, ⟨x, hx, ht⟩, by simp [hvalid]⟩

/-- An entry of `files` reads as the file it describes, whatever its index. -/
theorem readFileEntry_eq_ok {name : String} {index : Nat} {entry : Node} {f : FileEntry} :
    readFileEntry name index entry = .ok f ↔ FileOf name entry f := by
  unfold readFileEntry FileOf
  dsimp only
  simp only [bind, Except.bind_eq_ok, Fields.wrap_eq_ok]
  constructor
  · rintro ⟨g, ⟨d, hd, rfl⟩, len, hlen, md5, hmd5, segs, hsegs, h⟩
    split_ifs at h with hempty
    · cases h
    obtain ⟨texts, htexts, h⟩ := Except.bind_eq_ok.1 h
    cases h
    refine ⟨d, hd, (Fields.need_eq_ok Fields.reads_count).1 hlen, readMd5sum_eq_ok.1 hmd5,
      segs, texts, (Fields.need_eq_ok Fields.reads_list).1 hsegs, ?_, ?_, rfl⟩
    · simpa using hempty
    · -- each path segment is a byte string of UTF-8
      refine (mapM_eq_ok_iff_of fun s t => ?_).1 htexts
      unfold IsText Node.asText?
      rcases s.asBytes? with _ | b <;> simp [Except.bind, Fields.utf8_eq_ok]
  · rintro ⟨d, hd, hlen, hmd5, segs, texts, hsegs, hne, htexts, hpath⟩
    refine ⟨⟨d, _⟩, ⟨d, hd, rfl⟩, f.length, (Fields.need_eq_ok Fields.reads_count).2 hlen,
      f.md5sum, readMd5sum_eq_ok.2 hmd5, segs, (Fields.need_eq_ok Fields.reads_list).2 hsegs, ?_⟩
    rw [if_neg (by simpa using hne)]
    refine Except.bind_eq_ok.2 ⟨texts, (mapM_eq_ok_iff_of fun s t => ?_).2 htexts, ?_⟩
    · unfold IsText Node.asText?
      rcases s.asBytes? with _ | b <;> simp [Except.bind, Fields.utf8_eq_ok]
    · rw [← hpath]
      rfl

/-- The files of `files` read one by one under the torrent's name, none dropped. -/
theorem readEntries_eq_ok {name : String} {entries : List Node} {files : List FileEntry} :
    (entries.zipIdx.mapM fun (e, i) => readFileEntry name i e) = .ok files ↔
      List.Forall₂ (FileOf name) entries files := by
  rw [mapM_eq_ok_iff]
  -- the index only names a fault, so an entry reads as the same file at any index
  have hindex : List.Forall₂ (fun (p : Node × Nat) f => readFileEntry name p.2 p.1 = .ok f)
      entries.zipIdx files ↔ List.Forall₂ (fun (p : Node × Nat) f => FileOf name p.1 f)
        entries.zipIdx files :=
    ⟨fun h => h.imp fun _ _ => readFileEntry_eq_ok.1, fun h => h.imp fun _ _ => readFileEntry_eq_ok.2⟩
  rw [hindex, ← List.forall₂_map_left_iff (f := Prod.fst), List.zipIdx_map_fst]

theorem readFiles_eq_ok {info : Fields} {name : String} {mode : FileMode} {files : List FileEntry} :
    readFiles info name = .ok (mode, files) ↔ FilesOf info.entries name mode files := by
  unfold readFiles
  simp only [Fields.contains_eq]
  rcases hl : Dict.find? (ofString "length") info.entries with _ | l <;>
    rcases hf : Dict.find? (ofString "files") info.entries with _ | fs
  · -- neither mode
    cases mode <;> simp [FilesOf, hl, hf, Required]
  · -- the files of `files`
    cases mode
    · simp [FilesOf, hf, bind, Except.bind_eq_ok, pure, Except.pure]
    · simp only [Option.isSome_none, Option.isSome_some, bind, Except.bind_eq_ok,
        Fields.need_eq_ok Fields.reads_list, readEntries_eq_ok, pure, Except.pure, Except.ok.injEq,
        Prod.mk.injEq, FilesOf, hl, true_and]
      constructor
      · rintro ⟨es, hes, fs', hfs', rfl⟩
        exact ⟨es, hes, hfs'⟩
      · rintro ⟨es, hes, hfs'⟩
        exact ⟨es, hes, files, hfs', rfl⟩
  · -- the one file of `length`
    cases mode
    · simp only [Option.isSome_none, Option.isSome_some, bind, Except.bind_eq_ok,
        Fields.need_eq_ok Fields.reads_count, readMd5sum_eq_ok, pure, Except.pure, Except.ok.injEq,
        Prod.mk.injEq, FilesOf, hf, true_and]
      constructor
      · rintro ⟨len, hlen, md5, hmd5, rfl⟩
        exact ⟨len, md5, hlen, hmd5, rfl⟩
      · rintro ⟨len, md5, hlen, hmd5, rfl⟩
        exact ⟨len, hlen, md5, hmd5, rfl⟩
    · simp [FilesOf, hl, bind, Except.bind_eq_ok, pure, Except.pure]
  · -- both modes
    cases mode <;> simp [FilesOf, hl, hf]

/-- An info dictionary with both `length` and `files` is refused as holding both modes. -/
theorem readFiles_both {info : Fields} {name : String}
    (hl : (Dict.find? (ofString "length") info.entries).isSome)
    (hf : (Dict.find? (ofString "files") info.entries).isSome) :
    readFiles info name = .error .bothFileModes := by
  unfold readFiles
  simp only [Fields.contains_eq, hl, hf]

/-- An info dictionary with neither `length` nor `files` is refused as holding neither mode. -/
theorem readFiles_neither {info : Fields} {name : String}
    (hl : Dict.find? (ofString "length") info.entries = none)
    (hf : Dict.find? (ofString "files") info.entries = none) :
    readFiles info name = .error .neitherFileMode := by
  unfold readFiles
  simp only [Fields.contains_eq, hl, hf, Option.isSome_none]

/-! ## Section 4: The reading of a torrent -/

namespace Metainfo

/-- Past a header that says `h`'s fields, the reading of a tree is the reading of its files. -/
theorem parse_of_header {root : Node} {top info : Dict} {h : Metainfo} (hi : InfoOf root top info)
    (hh : HeaderOf top info h) :
    parse root = (readFiles ⟨info, "info"⟩ h.name >>= fun p =>
      pure { h with mode := p.1, files := p.2 }) := by
  obtain ⟨htop, x, hx, hinfo⟩ := hi
  -- every step before the files reads as the header says
  have hroot : rootFields root = .ok ⟨top, "root"⟩ := rootFields_eq_ok.2 ⟨top, htop, rfl⟩
  have hchild : (⟨top, "root"⟩ : Fields).child "info" = .ok ⟨info, "info"⟩ :=
    Fields.child_eq_ok.2 ⟨x, info, hx, hinfo, rfl⟩
  have hpl : checkedPieceLength ⟨info, "info"⟩ = .ok h.pieceLength :=
    checkedPieceLength_eq_ok.2 ⟨hh.pieceLength, hh.pieceLength_pos⟩
  have hpieces : checkedPieces ⟨info, "info"⟩ = .ok h.pieces :=
    checkedPieces_eq_ok.2 ⟨hh.pieces, hh.pieces_whole⟩
  have hpriv : readPrivate ⟨info, "info"⟩ = .ok h.isPrivate := readPrivate_eq_ok.2 hh.isPrivate
  have hname : (⟨info, "info"⟩ : Fields).need "name" Fields.text = .ok h.name :=
    (Fields.need_eq_ok Fields.reads_text).2 hh.name
  have hann : (⟨top, "root"⟩ : Fields).need "announce" Fields.text = .ok h.announce :=
    (Fields.need_eq_ok Fields.reads_text).2 hh.announce
  have htiers : readAnnounceList ⟨top, "root"⟩ = .ok h.announceTiers :=
    readAnnounceList_eq_ok.2 hh.announceTiers
  have hcd : (⟨top, "root"⟩ : Fields).opt "creation date" Fields.count = .ok h.creationDate :=
    (Fields.opt_eq_ok Fields.reads_count).2 hh.creationDate
  have hcm : (⟨top, "root"⟩ : Fields).opt "comment" Fields.text = .ok h.comment :=
    (Fields.opt_eq_ok Fields.reads_text).2 hh.comment
  have hcb : (⟨top, "root"⟩ : Fields).opt "created by" Fields.text = .ok h.createdBy :=
    (Fields.opt_eq_ok Fields.reads_text).2 hh.createdBy
  have henc : (⟨top, "root"⟩ : Fields).opt "encoding" Fields.text = .ok h.encoding :=
    (Fields.opt_eq_ok Fields.reads_text).2 hh.encoding
  rw [parse_eq]
  simp only [bind, Except.bind, hroot, hchild, hpl, hpieces, hpriv, hname, hann, htiers, hcd, hcm,
    hcb, henc]

/-- A tree reads as the torrent `m` exactly when it says `m`. -/
theorem parse_eq_ok_iff {root : Node} {m : Metainfo} : parse root = .ok m ↔ TorrentOf root m := by
  constructor
  · intro h
    rw [parse_eq] at h
    simp only [bind, Except.bind_eq_ok, rootFields_eq_ok, Fields.child_eq_ok,
      checkedPieceLength_eq_ok, checkedPieces_eq_ok, readPrivate_eq_ok,
      Fields.need_eq_ok Fields.reads_text, readAnnounceList_eq_ok,
      Fields.opt_eq_ok Fields.reads_count, Fields.opt_eq_ok Fields.reads_text, pure, Except.pure,
      Except.ok.injEq] at h
    obtain ⟨_, ⟨top, htop, rfl⟩, _, ⟨x, info, hx, hinfo, rfl⟩, pl, hpl, pieces, hpieces, priv, hpriv,
      name, hname, ann, hann, tiers, htiers, cd, hcd, cm, hcm, cb, hcb, enc, henc, ⟨mode, files⟩,
      hfiles, rfl⟩ := h
    exact ⟨top, info, ⟨htop, x, hx, hinfo⟩,
      ⟨hpl.1, hpl.2, hpieces.1, hpieces.2, hpriv, hname, hann, htiers, hcd, hcm, hcb, henc⟩,
      readFiles_eq_ok.1 hfiles⟩
  · intro h
    obtain ⟨top, info, hi, hh, hfiles⟩ := h
    rw [parse_of_header hi hh]
    exact Except.bind_eq_ok.2 ⟨(m.mode, m.files), readFiles_eq_ok.2 hfiles, rfl⟩

/-- With every field before the files as a header says, an info dictionary holding both
`length` and `files` is refused as holding both modes. -/
theorem parse_both_modes {root : Node} {top info : Dict} {h : Metainfo} (hi : InfoOf root top info)
    (hh : HeaderOf top info h) (hl : (Dict.find? (ofString "length") info).isSome)
    (hf : (Dict.find? (ofString "files") info).isSome) : parse root = .error .bothFileModes := by
  rw [parse_of_header hi hh, readFiles_both hl hf]
  rfl

/-- With every field before the files as a header says, an info dictionary holding neither
`length` nor `files` is refused as holding neither mode. -/
theorem parse_neither_mode {root : Node} {top info : Dict} {h : Metainfo} (hi : InfoOf root top info)
    (hh : HeaderOf top info h) (hl : Dict.find? (ofString "length") info = none)
    (hf : Dict.find? (ofString "files") info = none) : parse root = .error .neitherFileMode := by
  rw [parse_of_header hi hh, readFiles_neither hl hf]
  rfl

end Metainfo

/-! ## Section 5: Accepted torrents are valid -/

/-- What an accepted torrent promises about the tree it was read from, whose root has the entries
`top` and whose info dictionary has the entries `info`. -/
structure ValidTorrent (top info : Dict) (m : Metainfo) : Prop where
  pieceLength : Required info "piece length" IsCount m.pieceLength ∧ 0 < m.pieceLength
  pieces : Required info "pieces" IsBytes m.pieces ∧ 20 ∣ m.pieces.length
  isPrivate : PrivateFlag info m.isPrivate
  one_mode : (Dict.find? (ofString "length") info).isSome ≠ (Dict.find? (ofString "files") info).isSome
  single_iff_length : m.mode = .single ↔ (Dict.find? (ofString "length") info).isSome
  single_files : m.mode = .single →
    ∃ len md5, Required info "length" IsCount len ∧ Md5Sum info md5 ∧ m.files = [⟨len, md5, [m.name]⟩]
  multiple_files : m.mode = .multiple → ∃ es, Required info "files" IsList es ∧
    m.files.length = es.length ∧ ∀ i (h₁ : i < es.length) (h₂ : i < m.files.length),
      FileOf m.name es[i] m.files[i] ∧ 2 ≤ m.files[i].path.length
  md5sums : ∀ f ∈ m.files, ∀ s, f.md5sum = some s → isValidMd5sum s = true
  creationDate : Optional top "creation date" IsCount m.creationDate
  announceTiers : Optional top "announce-list" IsTiers m.announceTiers

theorem Md5Sum.valid {d : Dict} {v : Option String} (h : Md5Sum d v) {s : String} (hs : v = some s) :
    isValidMd5sum s = true := by
  subst hs
  obtain ⟨_, -, -, hvalid⟩ := h
  exact hvalid

theorem FileOf.path_length {name : String} {e : Node} {f : FileEntry} (h : FileOf name e f) :
    2 ≤ f.path.length := by
  obtain ⟨_, -, -, -, segs, texts, -, hne, htexts, hpath⟩ := h
  -- the segments are not empty and each gives one text, which follow the name
  have hlen : texts.length = segs.length := htexts.length_eq.symm
  have hpos : 0 < segs.length := List.length_pos_iff.2 hne
  rw [hpath, List.length_cons]
  omega

/-- A file read entry for entry from `files` is read from one of its entries. -/
theorem exists_entry_of_mem_files {name : String} {es : List Node} {files : List FileEntry}
    (hall : List.Forall₂ (FileOf name) es files) {f : FileEntry} (hf : f ∈ files) :
    ∃ e ∈ es, FileOf name e f := by
  induction hall with
  | nil => exact absurd hf List.not_mem_nil
  | cons hfirst _ ih =>
    rcases List.mem_cons.1 hf with rfl | hrest
    · exact ⟨_, List.mem_cons_self, hfirst⟩
    · obtain ⟨e, he, hfe⟩ := ih hrest
      exact ⟨e, List.mem_cons_of_mem _ he, hfe⟩

/-- A tree that says `m` gives the torrent everything it promises. -/
theorem TorrentOf.valid {root : Node} {m : Metainfo} (h : TorrentOf root m) :
    ∃ top info, InfoOf root top info ∧ ValidTorrent top info m := by
  obtain ⟨top, info, hi, hh, hfiles⟩ := h
  refine ⟨top, info, hi, ?_⟩
  -- the fields before the files are the header's; the files follow the mode
  cases hm : m.mode with
  | single =>
    rw [hm] at hfiles
    obtain ⟨hnf, len, md5, hlen, hmd5, hfs⟩ := hfiles
    have hl : (Dict.find? (ofString "length") info).isSome := by
      obtain ⟨x, hx, -⟩ := hlen
      simp [hx]
    exact {
      pieceLength := ⟨hh.pieceLength, hh.pieceLength_pos⟩
      pieces := ⟨hh.pieces, Nat.dvd_of_mod_eq_zero hh.pieces_whole⟩
      isPrivate := hh.isPrivate
      one_mode := by simp [hl, hnf]
      single_iff_length := by simp [hl, hm]
      single_files := fun _ => ⟨len, md5, hlen, hmd5, hfs⟩
      multiple_files := fun h => by simp [hm] at h
      md5sums := by
        -- the one file carries the info dictionary's md5sum
        intro f hf s hs
        rw [hfs, List.mem_singleton] at hf
        subst hf
        exact hmd5.valid hs
      creationDate := hh.creationDate
      announceTiers := hh.announceTiers }
  | multiple =>
    rw [hm] at hfiles
    obtain ⟨hnl, es, hes, hall⟩ := hfiles
    have hf : (Dict.find? (ofString "files") info).isSome := by
      obtain ⟨x, hx, -⟩ := hes
      simp [hx]
    -- the files are those of the entries, one for one
    have hat : ∀ i (h₁ : i < es.length) (h₂ : i < m.files.length), FileOf m.name es[i] m.files[i] :=
      fun i h₁ h₂ => by simpa only [List.get_eq_getElem] using hall.get h₁ h₂
    exact {
      pieceLength := ⟨hh.pieceLength, hh.pieceLength_pos⟩
      pieces := ⟨hh.pieces, Nat.dvd_of_mod_eq_zero hh.pieces_whole⟩
      isPrivate := hh.isPrivate
      one_mode := by simp [hf, hnl]
      single_iff_length := by simp [hnl, hm]
      single_files := fun h => by simp [hm] at h
      multiple_files := fun _ => ⟨es, hes, hall.length_eq.symm, fun i h₁ h₂ =>
        ⟨hat i h₁ h₂, (hat i h₁ h₂).path_length⟩⟩
      md5sums := by
        -- each file carries its own entry's md5sum
        intro f hf s hs
        obtain ⟨e, -, _, -, hfields⟩ := exists_entry_of_mem_files hall hf
        exact hfields.md5sum.valid hs
      creationDate := hh.creationDate
      announceTiers := hh.announceTiers }

/-- A torrent is accepted only when valid. Whatever tree `parse` accepts as `m`, `m`'s piece
length is the tree's `piece length` and positive, its pieces are the tree's `pieces` in whole
20-byte digests, the private flag was absent, 0 or 1 and is set exactly when it was 1, exactly
one of `length` and `files` was present and the mode is single exactly when it was `length`; a
single file is the info dictionary's length and md5sum under the torrent's name, and multiple
files match `files` entry for entry, each path the name followed by the entry's UTF-8 segments
and so at least two long; every md5sum present is 32 hex digits, every count is an integer of
the tree that is not negative, and the tiers mirror `announce-list`. Conversely, once every
field checked before the files is valid, both modes present are refused as `bothFileModes` and
neither as `neitherFileMode`. -/
theorem parsed_torrents_valid (root : Node) :
    (∀ m, Metainfo.parse root = .ok m → ∃ top info, InfoOf root top info ∧ ValidTorrent top info m) ∧
    (∀ top info h, InfoOf root top info → HeaderOf top info h →
      (Dict.find? (ofString "length") info).isSome → (Dict.find? (ofString "files") info).isSome →
      Metainfo.parse root = .error .bothFileModes) ∧
    (∀ top info h, InfoOf root top info → HeaderOf top info h →
      Dict.find? (ofString "length") info = none → Dict.find? (ofString "files") info = none →
      Metainfo.parse root = .error .neitherFileMode) :=
  ⟨fun _ h => (Metainfo.parse_eq_ok_iff.1 h).valid,
    fun _ _ _ hi hh hl hf => Metainfo.parse_both_modes hi hh hl hf,
    fun _ _ _ hi hh hl hf => Metainfo.parse_neither_mode hi hh hl hf⟩

/-- A one-file torrent is accepted, and valid. -/
theorem one_file_torrent_valid :
    ∃ top info, InfoOf (.dict [(ofString "announce", .str (ofString "a") none),
        (ofString "info", .dict [(ofString "length", .int 5 none),
          (ofString "name", .str (ofString "a.txt") none),
          (ofString "piece length", .int 16384 none),
          (ofString "pieces", .str (List.replicate 20 97) none)] none)] none) top info ∧
      ValidTorrent top info
        { name := "a.txt", pieceLength := 16384, pieces := List.replicate 20 97, isPrivate := false,
          mode := .single, files := [⟨5, none, ["a.txt"]⟩], announce := "a", announceTiers := none,
          creationDate := none, comment := none, createdBy := none, encoding := none } :=
  (parsed_torrents_valid _).1 _ (by decide +kernel)

end BitTorrent.Torrent
