import BitTorrent.Bytes.Basic

/-!
# IP addresses and socket addresses

Addresses as peers and trackers write them. An IPv4 address is four decimal octets, each of
one to three digits without a leading zero; an IPv6 address is up to eight groups of one to
four hex digits, with at most one `::` standing for one or more zero groups, and may end in
an IPv4 address filling its last two groups. Shown, an IPv6 address drops leading zeros in
each group, puts `::` in place of the first longest run of two or more zero groups, and
shows an IPv4-mapped address as `::ffff:a.b.c.d`.

## Main definitions

* `IpAddr`, `IpAddr.display`, `SocketAddr.display`.
* `IpAddr.parseV4?`, `IpAddr.parse?`: the address literals of the two families.
-/

namespace BitTorrent

namespace Net

/-- An IP address, by its octets in network order. -/
inductive IpAddr where
  /-- Four octets. -/
  | v4 (octets : Bytes)
  /-- Sixteen octets. -/
  | v6 (octets : Bytes)
deriving DecidableEq, Repr

/-- A run of decimal or hex digits read as a number, with the text after it. `bound` is the
largest value the field holds; more than `maxDigits` digits, no digit, or a value past
`bound` refuse the field, and so does a leading zero in a field of several digits unless
`zeroPrefix` allows it. -/
def readNumber (radix maxDigits bound : Nat) (zeroPrefix : Bool) (s : List Char) :
    Option (Nat × List Char) :=
  let digitOf (c : Char) : Option Nat :=
    if '0' ≤ c ∧ c ≤ '9' then some (c.toNat - 48)
    else if radix = 16 ∧ 'a' ≤ c ∧ c ≤ 'f' then some (c.toNat - 87)
    else if radix = 16 ∧ 'A' ≤ c ∧ c ≤ 'F' then some (c.toNat - 55)
    else none
  let ds := s.takeWhile fun c => (digitOf c).isSome
  let value := ds.foldl (fun acc c => acc * radix + (digitOf c).getD 0) 0
  if ds.isEmpty || maxDigits < ds.length || bound < value then none
  else if !zeroPrefix && ds.head? == some '0' && 1 < ds.length then none
  else some (value, s.drop ds.length)

/-- A character `c` then whatever `p` reads; the separator is read only before fields after
the first. -/
def withSep {α : Type} (c : Char) (first : Bool) (p : List Char → Option (α × List Char))
    (s : List Char) : Option (α × List Char) :=
  if first then p s
  else match s with
    | c' :: rest => if c' = c then p rest else none
    | [] => none

/-- Four dot-separated decimal octets. -/
def readV4 (s : List Char) : Option (Bytes × List Char) := do
  let (a, s) ← readNumber 10 3 255 false s
  let (b, s) ← withSep '.' false (readNumber 10 3 255 false) s
  let (c, s) ← withSep '.' false (readNumber 10 3 255 false) s
  let (d, s) ← withSep '.' false (readNumber 10 3 255 false) s
  pure ([a.toUInt8, b.toUInt8, c.toUInt8, d.toUInt8], s)

/-- The two 16-bit groups of an IPv4 address's four octets. -/
def groups2 (o : Bytes) : List Nat :=
  [(o.getD 0 0).toNat * 256 + (o.getD 1 0).toNat, (o.getD 2 0).toNat * 256 + (o.getD 3 0).toNat]

/-- Reads up to `limit` colon-separated groups, the last two of which may be an embedded
IPv4 address; returns the groups, whether an IPv4 address ended them, and the rest. -/
def readGroups (limit : Nat) (s : List Char) : List Nat × Bool × List Char :=
  go limit 0 s
where
  /-- Group `i` onwards, with `left` groups still allowed. -/
  go : Nat → Nat → List Char → List Nat × Bool × List Char
    | 0, _, s => ([], false, s)
    | left + 1, i, s =>
      let v4 := if 1 < left + 1 then withSep ':' (i == 0) readV4 s else none
      match v4 with
      | some (o, rest) =>
        (groups2 o, true, rest)
      | none =>
        match withSep ':' (i == 0) (readNumber 16 4 0xFFFF true) s with
        | some (g, rest) =>
          let (gs, v4End, rest') := go left (i + 1) rest
          (g :: gs, v4End, rest')
        | none => ([], false, s)

/-- The sixteen octets of eight 16-bit groups. -/
def groupsToBytes (gs : List Nat) : Bytes := gs.flatMap fun g => Bytes.ofNatBE 2 g

/-- An IPv6 address: eight groups, or a head, `::`, and a tail of at most the groups left. -/
def readV6 (s : List Char) : Option (Bytes × List Char) :=
  let (head, headV4, s1) := readGroups 8 s
  if head.length = 8 then some (groupsToBytes head, s1)
  else if headV4 then none
  else
    match s1 with
    | ':' :: ':' :: s2 =>
      let (tail, _, s3) := readGroups (8 - (head.length + 1)) s2
      let zeros := List.replicate (8 - head.length - tail.length) 0
      some (groupsToBytes (head ++ zeros ++ tail), s3)
    | _ => none

namespace IpAddr

/-- An IPv4 literal and nothing else. -/
def parseV4? (s : String) : Option Bytes :=
  match readV4 s.toList with
  | some (o, []) => some o
  | _ => none

/-- An IPv4 literal, else an IPv6 literal, filling the whole text. -/
def parse? (s : String) : Option IpAddr :=
  match readV4 s.toList with
  | some (o, rest) => if rest.isEmpty then some (.v4 o) else none
  | none =>
    match readV6 s.toList with
    | some (o, []) => some (.v6 o)
    | _ => none

/-- Dotted decimal octets. -/
def displayV4 (o : Bytes) : String := ".".intercalate (o.map fun b => toString b.toNat)

/-- Lower-case hex without leading zeros. -/
def hexGroup (g : Nat) : String := String.ofList (Nat.toDigits 16 g)

/-- The eight 16-bit groups of sixteen octets. -/
def groups (o : Bytes) : List Nat :=
  (List.range 8).map fun i => (o.getD (2 * i) 0).toNat * 256 + (o.getD (2 * i + 1) 0).toNat

/-- The first longest run of zero groups: its start and length. -/
def longestZeroRun (gs : List Nat) : Nat × Nat :=
  let step := fun (acc : (Nat × Nat) × (Nat × Nat)) (ig : Nat × Nat) =>
    let ((bestStart, bestLen), (curStart, curLen)) := acc
    let (g, i) := ig
    if g = 0 then
      let cur := if curLen = 0 then (i, 1) else (curStart, curLen + 1)
      (if bestLen < cur.2 then cur else (bestStart, bestLen), cur)
    else ((bestStart, bestLen), (0, 0))
  (gs.zipIdx.foldl step ((0, 0), (0, 0))).1

/-- IPv6 text: IPv4-mapped addresses as `::ffff:a.b.c.d`, else the groups in hex with the
first longest run of two or more zero groups written `::`. -/
def displayV6 (o : Bytes) : String :=
  let gs := groups o
  if gs.take 6 = [0, 0, 0, 0, 0, 0xFFFF] then "::ffff:" ++ displayV4 (o.drop 12)
  else
    let (start, len) := longestZeroRun gs
    let part (l : List Nat) := ":".intercalate (l.map hexGroup)
    if 1 < len then part (gs.take start) ++ "::" ++ part (gs.drop (start + len))
    else part gs

/-- The text of an address. -/
def display : IpAddr → String
  | v4 o => displayV4 o
  | v6 o => displayV6 o

end IpAddr

/-- An address and a port. -/
structure SocketAddr where
  ip : IpAddr
  port : UInt16
deriving DecidableEq, Repr

/-- `a.b.c.d:port`, or `[v6]:port`. -/
def SocketAddr.display (a : SocketAddr) : String :=
  match a.ip with
  | .v4 _ => a.ip.display ++ ":" ++ toString a.port.toNat
  | .v6 _ => "[" ++ a.ip.display ++ "]:" ++ toString a.port.toNat

end Net

end BitTorrent
