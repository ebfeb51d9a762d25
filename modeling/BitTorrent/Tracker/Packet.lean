import BitTorrent.Bytes.Basic
import BitTorrent.Tracker.Error

/-!
# Big-endian packets

UDP tracker packets are sequences of big-endian fields. A packet is written by appending
fields and read by taking them off the front. Every read checks that enough bytes remain and
otherwise fails with `InvalidResponse`, leaving the reader as it was.

A reader is held by mutable reference, so its methods are computations in
`PacketReader.Method`: a call returns a value or an error, and the reader keeps whatever state
the call left it in, in both cases. A read first checks the length and only then takes bytes.

## Main definitions

* `Packet.u16`, `Packet.u32`, `Packet.i32`, `Packet.u64`: the bytes of one field.
* `Field`, `PacketWriter`: the fields a writer appends, and the writer.
* `PacketReader.readNat`, `PacketReader.readBytes`, `PacketReader.rest`.
* `PacketReader.readUInt`, `PacketReader.readArray`, `PacketReader.takeRest`: the same reads as
  methods of a reader.
* `PacketReader.Read`: the reader's reads, `read_u16`, `read_u32`, `read_u64` and `read_array`.
-/

namespace BitTorrent

namespace Tracker

namespace Packet

/-- A 16-bit field. -/
def u16 (n : Nat) : Bytes := Bytes.ofNatBE 2 n

/-- A 32-bit field. -/
def u32 (n : Nat) : Bytes := Bytes.ofNatBE 4 n

/-- A signed 32-bit field in two's complement. -/
def i32 (n : Int) : Bytes := Bytes.ofNatBE 4 (n % Int.ofNat (Nat.pow 2 32)).toNat

/-- A 64-bit field. -/
def u64 (n : Nat) : Bytes := Bytes.ofNatBE 8 n

end Packet

/-- A field appended to a packet: one constructor per write method of the writer. -/
inductive Field
  | u16 (v : UInt16)
  | u32 (v : UInt32)
  | i32 (v : Int32)
  | u64 (v : UInt64)
  | bytes (b : Bytes)
deriving DecidableEq, Repr

/-- The bytes a field is written as: numbers big-endian, a signed number in two's complement,
byte strings as they are. -/
def Field.encode : Field → Bytes
  | .u16 v => Packet.u16 v.toNat
  | .u32 v => Packet.u32 v.toNat
  | .i32 v => Packet.i32 v.toInt
  | .u64 v => Packet.u64 v.toNat
  | .bytes b => b

/-- An outgoing packet being built: the bytes written so far. A capacity given at creation
only reserves memory, so the empty writer `{}` stands for every new one. -/
structure PacketWriter where
  buf : Bytes := []
deriving DecidableEq, Repr

namespace PacketWriter

/-- Appends one field. -/
def write (w : PacketWriter) (f : Field) : PacketWriter := ⟨w.buf ++ f.encode⟩

/-- The number of bytes written so far. -/
def len (w : PacketWriter) : Nat := w.buf.length

/-- Nothing has been written. -/
def isEmpty (w : PacketWriter) : Bool := w.buf.isEmpty

/-- The finished packet. -/
def finish (w : PacketWriter) : Bytes := w.buf

end PacketWriter

/-- The unread part of a received packet. -/
structure PacketReader where
  remaining : Bytes
deriving DecidableEq, Repr

namespace PacketReader

/-- Fails unless `n` more bytes remain. -/
def need (r : PacketReader) (n : Nat) : Except TrackerError Unit :=
  if r.remaining.length < n then
    .error (.invalidResponse ("packet too short: need " ++ toString n ++ " more bytes, have " ++
      toString r.remaining.length))
  else .ok ()

/-- The next `n` bytes. -/
def readBytes (r : PacketReader) (n : Nat) : Except TrackerError (Bytes × PacketReader) := do
  r.need n
  return (r.remaining.take n, ⟨r.remaining.drop n⟩)

/-- The next `n` bytes as a big-endian number. -/
def readNat (r : PacketReader) (n : Nat) : Except TrackerError (Nat × PacketReader) := do
  let (b, r') ← r.readBytes n
  return (Bytes.toNatBE b, r')

/-- Everything not read yet; nothing remains after it. -/
def rest (r : PacketReader) : Bytes × PacketReader := (r.remaining, ⟨[]⟩)

/-- A method of a reader held by mutable reference: it returns a value or an error, and the
reader keeps the state the call left it in either way. -/
abbrev Method := ExceptT TrackerError (StateM PacketReader)

/-- `need` as a method: fails unless `n` more bytes remain, and moves nothing. -/
def ensure (n : Nat) : Method Unit := do
  let r ← get
  r.need n

/-- Takes `n` bytes off the front of the reader. It is only called once `ensure n` has
passed, so the bytes are there. -/
def advance (n : Nat) : Method Bytes :=
  modifyGet fun r => (r.remaining.take n, ⟨r.remaining.drop n⟩)

/-- The next `n` bytes (`read_array`). -/
def readArray (n : Nat) : Method Bytes := do
  ensure n
  advance n

/-- The next `width` bytes as one big-endian number (`read_u16`, `read_u32`, `read_u64`). -/
def readUInt (width : Nat) : Method Nat := do
  ensure width
  return Bytes.toNatBE (← advance width)

/-- `rest` as a method: everything not read yet, leaving the reader empty. -/
def takeRest : StateM PacketReader Bytes := modifyGet rest

/-- The reads of a reader. -/
inductive Read
  | u16
  | u32
  | u64
  | array (n : Nat)
deriving DecidableEq, Repr

/-- What a read returns: a number, or an array of bytes. -/
inductive Value
  | num (n : Nat)
  | bytes (b : Bytes)
deriving DecidableEq, Repr

/-- The number of bytes a read takes. -/
def Read.width : Read → Nat
  | .u16 => 2
  | .u32 => 4
  | .u64 => 8
  | .array n => n

/-- Makes a read on the reader. -/
def Read.run : Read → Method Value
  | .u16 => .num <$> readUInt 2
  | .u32 => .num <$> readUInt 4
  | .u64 => .num <$> readUInt 8
  | .array n => .bytes <$> readArray n

/-- A method's run: a value is passed on with the reader it left, an error stops the run with
the reader where it stood. -/
theorem run_bind {α β : Type} (x : Method α) (f : α → Method β) (r : PacketReader) :
    (x >>= f).run.run r = match x.run.run r with
      | (.ok a, r') => (f a).run.run r'
      | (.error e, r') => (.error e, r') := by
  simp only [ExceptT.run_bind, StateT.run_bind]
  rcases x.run.run r with ⟨_ | a, r'⟩ <;> rfl

theorem ensure_run (r : PacketReader) (n : Nat) : (ensure n).run.run r = (r.need n, r) := rfl

theorem advance_run (r : PacketReader) (n : Nat) :
    (advance n).run.run r = (.ok (r.remaining.take n), ⟨r.remaining.drop n⟩) := rfl

theorem takeRest_run (r : PacketReader) : takeRest.run r = (r.remaining, ⟨[]⟩) := rfl

end PacketReader

end Tracker

end BitTorrent
