import BitTorrent.Bencode.Node
import BitTorrent.Torrent.Error

/-!
# Typed fields of a torrent's dictionaries

Reading a torrent looks fields up in three kinds of dictionary: the root, the info
dictionary and each entry of `files`. A `Fields` is one such dictionary with the name its
faults are reported under, and its readers turn an absent field, a value of the wrong kind,
a negative count or text that is not UTF-8 into the matching `MetainfoError`.
-/

namespace BitTorrent

namespace Torrent

open Bencode

/-- A dictionary being read, with the name its faults are reported under. -/
structure Fields where
  entries : Dict
  context : String

namespace Fields

/-- Views `n`, found as `field` of the dictionary `parent`, as a dictionary whose faults are
reported as `context`. -/
def wrap (n : Node) (context parent field : String) : Except MetainfoError Fields :=
  match n.asDict? with
  | some es => .ok ⟨es, context⟩
  | none => .error (.invalidType parent field "dictionary" n.kind)

/-- The value of a field, if present. -/
def find? (f : Fields) (field : String) : Option Node := Dict.find? (Bytes.ofString field) f.entries

/-- Whether the field is present. -/
def contains (f : Fields) (field : String) : Bool := (f.find? field).isSome

/-- The fault of a field holding a value of the wrong kind. -/
def typeError (f : Fields) (field expected : String) (n : Node) : MetainfoError :=
  .invalidType f.context field expected n.kind

/-- The value of a required field. -/
def required (f : Fields) (field : String) : Except MetainfoError Node :=
  match f.find? field with
  | some n => .ok n
  | none => .error (.missingField f.context field)

/-- A required field that must be a dictionary, viewed under the field's own name. -/
def child (f : Fields) (field : String) : Except MetainfoError Fields := do
  let n ← f.required field
  wrap n field f.context field

/-- The integer a field holds. -/
def int (f : Fields) (field : String) (n : Node) : Except MetainfoError Int :=
  match n.asInt? with
  | some v => .ok v
  | none => .error (f.typeError field "integer" n)

/-- A count: an integer that is not negative. -/
def count (f : Fields) (field : String) (n : Node) : Except MetainfoError Nat := do
  let v ← f.int field n
  if v < 0 then .error (.negativeValue f.context field) else .ok v.toNat

/-- The byte string a field holds. -/
def bytes (f : Fields) (field : String) (n : Node) : Except MetainfoError Bytes :=
  match n.asBytes? with
  | some b => .ok b
  | none => .error (f.typeError field "string" n)

/-- Bytes of a field that must be UTF-8 text. -/
def utf8 (context field : String) (b : Bytes) : Except MetainfoError String :=
  match Utf8.decode? b with
  | some s => .ok s
  | none => .error (.invalidUtf8 context field)

/-- The text a field holds. -/
def text (f : Fields) (field : String) (n : Node) : Except MetainfoError String := do
  utf8 f.context field (← f.bytes field n)

/-- The list a field holds. -/
def list (f : Fields) (field : String) (n : Node) : Except MetainfoError (List Node) :=
  match n.asList? with
  | some l => .ok l
  | none => .error (f.typeError field "list" n)

/-- Reads a required field. -/
def need {α : Type} (f : Fields) (field : String)
    (read : Fields → String → Node → Except MetainfoError α) : Except MetainfoError α := do
  read f field (← f.required field)

/-- Reads an optional field. -/
def opt {α : Type} (f : Fields) (field : String)
    (read : Fields → String → Node → Except MetainfoError α) :
    Except MetainfoError (Option α) :=
  match f.find? field with
  | some n => some <$> read f field n
  | none => .ok none

end Fields

end Torrent

end BitTorrent
