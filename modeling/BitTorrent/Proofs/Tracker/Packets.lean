import BitTorrent.Tracker.Packet
import BitTorrent.Proofs.BigEndian

/-!
# Packets read back

A `PacketWriter` appends big-endian fields to a packet and a `PacketReader` takes them off the
front. Reads whose widths line up with the fields written return the values written, in order,
and the reader then holds exactly the bytes of the fields not read yet, which `rest` hands over
whole. A read that needs more bytes than remain fails with `InvalidResponse` before it takes
any: the reader is left as it was, and the reads after it go on as if it had not been made.

## Main definitions

* `PacketReader.Read.decode`: what a read makes of the bytes it takes.
* `Field.lineUp`, `Field.value`: the read lined up with a field, and what that read returns.

## Main statements

* `Read.run_run_of_le`, `Read.run_run_of_lt`: every read on every reader.
* `bind_run_of_lt`: a failed read changes nothing for the reads after it.
* `readFields_encode`: reads lined up with fields return the fields' values.
* `written_fields_read_back`: packets read back.
-/

namespace BitTorrent.Tracker

namespace PacketReader

/-! ## Section 1: Each read on each reader -/

theorem need_of_le {r : PacketReader} {n : Nat} (h : n ≤ r.remaining.length) :
    r.need n = .ok () := by
  simp [need, Nat.not_lt.2 h]

theorem need_of_lt {r : PacketReader} {n : Nat} (h : r.remaining.length < n) :
    r.need n = .error (.invalidResponse ("packet too short: need " ++ toString n ++
      " more bytes, have " ++ toString r.remaining.length)) := by
  simp [need, h]

theorem run_map {α β : Type} (g : α → β) (x : Method α) (r : PacketReader) :
    (g <$> x).run.run r = match x.run.run r with
      | (.ok a, r') => (.ok (g a), r')
      | (.error e, r') => (.error e, r') := by
  simp only [ExceptT.run_map, StateT.run_map]
  rcases x.run.run r with ⟨_ | a, r'⟩ <;> rfl

/-- A check that fails stops the method at once, so nothing after it touches the reader. -/
theorem ensure_bind_of_lt {α : Type} {r : PacketReader} {n : Nat} (f : Unit → Method α)
    (h : r.remaining.length < n) :
    (ensure n >>= f).run.run r = (.error (.invalidResponse ("packet too short: need " ++
      toString n ++ " more bytes, have " ++ toString r.remaining.length)), r) := by
  rw [run_bind, ensure_run, need_of_lt h]

theorem ensure_bind_of_le {α : Type} {r : PacketReader} {n : Nat} (f : Unit → Method α)
    (h : n ≤ r.remaining.length) : (ensure n >>= f).run.run r = (f ()).run.run r := by
  rw [run_bind, ensure_run, need_of_le h]

theorem readArray_run_of_le {r : PacketReader} {n : Nat} (h : n ≤ r.remaining.length) :
    (readArray n).run.run r = (.ok (r.remaining.take n), ⟨r.remaining.drop n⟩) := by
  rw [readArray, ensure_bind_of_le _ h, advance_run]

theorem readUInt_run_of_le {r : PacketReader} {n : Nat} (h : n ≤ r.remaining.length) :
    (readUInt n).run.run r = (.ok (Bytes.toNatBE (r.remaining.take n)), ⟨r.remaining.drop n⟩) := by
  rw [readUInt, ensure_bind_of_le _ h, run_bind, advance_run]
  rfl

/-- What a read makes of the bytes it takes: a number, read big-endian, or the bytes
themselves. -/
def Read.decode : Read → Bytes → Value
  | .array _, b => .bytes b
  | _, b => .num (Bytes.toNatBE b)

/-- A read with enough bytes left takes its width off the front. -/
theorem Read.run_run_of_le {op : Read} {r : PacketReader} (h : op.width ≤ r.remaining.length) :
    op.run.run.run r =
      (.ok (op.decode (r.remaining.take op.width)), ⟨r.remaining.drop op.width⟩) := by
  -- the three number reads differ only in their width
  cases op with
  | array n => rw [run, run_map, readArray_run_of_le (n := n) h]; rfl
  | u16 => rw [run, run_map, readUInt_run_of_le (n := 2) h]; rfl
  | u32 => rw [run, run_map, readUInt_run_of_le (n := 4) h]; rfl
  | u64 => rw [run, run_map, readUInt_run_of_le (n := 8) h]; rfl

/-- A read with too few bytes left fails with `InvalidResponse`, saying how many it needed and
how many there were, and leaves the reader as it was. -/
theorem Read.run_run_of_lt {op : Read} {r : PacketReader} (h : r.remaining.length < op.width) :
    op.run.run.run r = (.error (.invalidResponse ("packet too short: need " ++
      toString op.width ++ " more bytes, have " ++ toString r.remaining.length)), r) := by
  -- every read checks the length before it takes a byte
  cases op with
  | array n => rw [run, run_map, readArray, ensure_bind_of_lt (n := n) _ h]; rfl
  | u16 => rw [run, run_map, readUInt, ensure_bind_of_lt (n := 2) _ h]; rfl
  | u32 => rw [run, run_map, readUInt, ensure_bind_of_lt (n := 4) _ h]; rfl
  | u64 => rw [run, run_map, readUInt, ensure_bind_of_lt (n := 8) _ h]; rfl

/-- A failed read is invisible: whatever the caller does with the reader afterwards goes as
if the read had not been made. -/
theorem bind_run_of_lt {α : Type} {op : Read} {r : PacketReader} (k : StateM PacketReader α)
    (h : r.remaining.length < op.width) : (op.run.run >>= fun _ => k).run r = k.run r := by
  rw [StateT.run_bind, Read.run_run_of_lt h]
  rfl

end PacketReader

/-! ## Section 2: Fields written and read -/

open PacketReader

theorem PacketWriter.finish_foldl_write (w : PacketWriter) (fs : List Field) :
    (fs.foldl PacketWriter.write w).finish = w.finish ++ (fs.map Field.encode).flatten := by
  induction fs generalizing w with
  | nil => simp
  | cons f fs ih =>
    rw [List.foldl_cons, ih]
    simp [PacketWriter.write, PacketWriter.finish]

namespace Field

/-- The read lined up with a field: `read_u16`, `read_u32` for either 32-bit field, `read_u64`,
and `read_array` of the field's length for bytes. -/
def lineUp : Field → Read
  | .u16 _ => .u16
  | .u32 _ => .u32
  | .i32 _ => .u32
  | .u64 _ => .u64
  | .bytes b => .array b.length

/-- What the read lined up with a field returns: the number written, a signed one as its 32-bit
two's complement pattern, or the bytes written. -/
def value : Field → Value
  | .u16 v => .num v.toNat
  | .u32 v => .num v.toNat
  | .i32 v => .num v.toUInt32.toNat
  | .u64 v => .num v.toNat
  | .bytes b => .bytes b

theorem length_encode (f : Field) : f.encode.length = f.lineUp.width := by
  cases f <;> simp [encode, lineUp, Read.width, Packet.u16, Packet.u32, Packet.i32, Packet.u64,
    Bytes.length_ofNatBE]

/-- The two's complement pattern of a signed field, as the field writes it. -/
theorem i32_bits (v : Int32) : (v.toInt % Int.ofNat (Nat.pow 2 32)).toNat = v.toUInt32.toNat := by
  have h := BitVec.toNat_ofInt (n := 32) v.toInt
  rw [← Int32.toInt_toBitVec, BitVec.ofInt_toInt] at h
  exact h.symm

theorem decode_encode (f : Field) : f.lineUp.decode f.encode = f.value := by
  -- every number fits the field it is written in, so it reads back whole
  cases f with
  | u16 v =>
    simp only [lineUp, encode, Read.decode, Packet.u16, value,
      Bytes.toNatBE_ofNatBE_of_lt (w := 2) (UInt16.toNat_lt v)]
  | u32 v =>
    simp only [lineUp, encode, Read.decode, Packet.u32, value,
      Bytes.toNatBE_ofNatBE_of_lt (w := 4) (UInt32.toNat_lt v)]
  | i32 v =>
    simp only [lineUp, encode, Read.decode, Packet.i32, i32_bits, value,
      Bytes.toNatBE_ofNatBE_of_lt (w := 4) (UInt32.toNat_lt v.toUInt32)]
  | u64 v =>
    simp only [lineUp, encode, Read.decode, Packet.u64, value,
      Bytes.toNatBE_ofNatBE_of_lt (w := 8) (UInt64.toNat_lt v)]
  | bytes b => rfl

/-- The read lined up with a field takes exactly its bytes and returns its value. -/
theorem lineUp_run_encode (f : Field) (rest : Bytes) :
    f.lineUp.run.run.run ⟨f.encode ++ rest⟩ = (.ok f.value, ⟨rest⟩) := by
  have hlen := f.length_encode
  rw [Read.run_run_of_le (by simp [hlen]), ← hlen, List.take_left, List.drop_left,
    decode_encode]

end Field

/-- Reads lined up with a run of fields return the fields' values in order and leave the
reader on what follows them. The induction is on the fields, with the bytes after them free. -/
theorem readFields_encode (fs : List Field) (rest : Bytes) :
    ((fs.map Field.lineUp).mapM Read.run).run.run ⟨(fs.map Field.encode).flatten ++ rest⟩ =
      (.ok (fs.map Field.value), ⟨rest⟩) := by
  induction fs with
  | nil => rfl
  | cons f fs ih =>
    rw [List.map_cons, List.mapM_cons, run_bind, List.map_cons, List.flatten_cons,
      List.append_assoc, f.lineUp_run_encode]
    dsimp only
    rw [run_bind, ih]
    rfl

/-- The bytes a run of lined-up reads takes are those of the fields it reads. -/
theorem sum_width_lineUp (fs : List Field) :
    ((fs.map Field.lineUp).map Read.width).sum = ((fs.map Field.encode).flatten).length := by
  induction fs with
  | nil => rfl
  | cons f fs ih => simp [List.length_flatten, Field.length_encode] at ih ⊢; omega

/-- Packets read back. Every read takes its width off the front when that many bytes remain,
reading numbers big-endian; otherwise it fails with `InvalidResponse` and leaves the reader as
it was, so a later read goes on as if it had not been made. Over a finished packet, reads lined
up with the first fields written return those fields' values, the reader is left holding the
bytes of the other fields, as many as were not read, and `rest` then returns exactly them and
leaves nothing. -/
theorem written_fields_read_back :
    (∀ (op : Read) (r : PacketReader), op.width ≤ r.remaining.length →
      op.run.run.run r =
        (.ok (op.decode (r.remaining.take op.width)), ⟨r.remaining.drop op.width⟩)) ∧
    (∀ (op : Read) (r : PacketReader), r.remaining.length < op.width →
      op.run.run.run r = (.error (.invalidResponse ("packet too short: need " ++
        toString op.width ++ " more bytes, have " ++ toString r.remaining.length)), r) ∧
      ∀ {α : Type} (k : StateM PacketReader α), (op.run.run >>= fun _ => k).run r = k.run r) ∧
    ∀ done todo : List Field,
      let packet := ((done ++ todo).foldl PacketWriter.write {}).finish
      let unread := (todo.foldl PacketWriter.write {}).finish
      ((done.map Field.lineUp).mapM Read.run).run.run ⟨packet⟩ =
        (.ok (done.map Field.value), ⟨unread⟩) ∧
      unread.length = packet.length - ((done.map Field.lineUp).map Read.width).sum ∧
      (do
        let vs ← (done.map Field.lineUp).mapM Read.run
        let rest ← takeRest
        pure (vs, rest) : Method (List Value × Bytes)).run.run ⟨packet⟩ =
        (.ok (done.map Field.value, unread), ⟨[]⟩) := by
  refine ⟨fun op r h => Read.run_run_of_le h,
    fun op r h => ⟨Read.run_run_of_lt h, fun k => bind_run_of_lt k h⟩, fun done todo => ?_⟩
  -- both packets are the fields' encodings laid end to end
  have hpacket : ((done ++ todo).foldl PacketWriter.write {}).finish =
      (done.map Field.encode).flatten ++ (todo.map Field.encode).flatten := by
    rw [PacketWriter.finish_foldl_write, List.map_append, List.flatten_append]
    rfl
  have hunread : (todo.foldl PacketWriter.write {}).finish = (todo.map Field.encode).flatten := by
    rw [PacketWriter.finish_foldl_write]
    rfl
  have hreads := readFields_encode done (todo.map Field.encode).flatten
  refine ⟨?_, ?_, ?_⟩
  · simp only [hpacket, hunread, hreads]
  · simp only [hpacket, hunread, sum_width_lineUp, List.length_append]
    omega
  · simp only [hpacket, hunread, run_bind, hreads]
    rfl

/-- A packet holding 7 in 32 bits, the largest 64-bit number and 9 in 16 bits: the 32-bit
and 64-bit reads give back the first two fields and leave the last two bytes; a 32-bit read
then fails on them, and the 16-bit read made after it still returns 9 and empties the
reader. -/
theorem failed_read_then_narrower :
    ([Read.u32, .u64].mapM Read.run).run.run
        ⟨([Field.u32 7, .u64 18446744073709551615, .u16 9].foldl PacketWriter.write {}).finish⟩ =
      (.ok [.num 7, .num 18446744073709551615], ⟨Field.encode (.u16 9)⟩) ∧
    (⟨Field.encode (.u16 9)⟩ : PacketReader).remaining.length < Read.u32.width ∧
    (Read.u32.run.run >>= fun _ => Read.u16.run.run).run ⟨Field.encode (.u16 9)⟩ =
      (.ok (.num 9), ⟨[]⟩) := by
  have hshort : (⟨Field.encode (.u16 9)⟩ : PacketReader).remaining.length < Read.u32.width := by
    decide
  refine ⟨(written_fields_read_back.2.2 [.u32 7, .u64 18446744073709551615] [.u16 9]).1,
    hshort, ?_⟩
  rw [(written_fields_read_back.2.1 .u32 _ hshort).2]
  rfl

end BitTorrent.Tracker
