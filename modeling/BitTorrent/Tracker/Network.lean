import BitTorrent.Tracker.Datagram

/-!
# A scripted datagram network

The UDP client talks to the network through two collaborators: a connector that opens a
transport to a host and port, and the transports, which send and receive datagrams and are
closed when released. Here both follow a script, so that every run is reproducible: each
connect call takes the next `ConnectPlan`, and each datagram sent takes the next `ReplyPlan`,
which either refuses the send or queues datagrams (or receive faults) for the client.
Queued datagrams are delivered at once, in order, on whichever transport receives next; an
item left unreceived when a transport is released waits for the next transport. With an
empty queue the network stays silent.

A well-behaved tracker (`DatagramPlan.auto`) answers a connect with the script's connection
id, an announce with an interval of 1800 s, 3 leechers, 7 seeders and the peers
10.0.0.1:6881 and 10.0.0.2:6882, and a scrape with the counts `10i+1`, `10i+2`, `10i+3` for
the `i`-th info hash.

## Main definitions

* `ConnectPlan`, `DatagramPlan`, `ReplyPlan`, `Script`.
* `Delivery`, `Transport`.
* `autoReply`, `DatagramPlan.resolve`.
-/

namespace BitTorrent

namespace Tracker

/-- How the network answers one connect call. -/
inductive ConnectPlan where
  /-- A transport is opened. -/
  | accept
  /-- The connection is refused. -/
  | refuse
  /-- The call never completes. -/
  | hang
deriving DecidableEq, Repr

/-- The transaction id a shaped datagram carries. -/
inductive TidPlan where
  /-- This id. -/
  | exact (tid : Nat)
  /-- The id of the datagram answered, plus an offset, modulo `2^32`. -/
  | offset (delta : Int)
deriving DecidableEq, Repr

/-- One item queued in answer to a sent datagram. -/
inductive DatagramPlan where
  /-- What a well-behaved tracker answers. -/
  | auto
  /-- These bytes. -/
  | raw (b : Bytes)
  /-- The receive call that reaches this item fails. -/
  | recvFault (reason : String)
  /-- A 32-bit action, a transaction id, then a body. -/
  | shaped (action : Nat) (tid : TidPlan) (body : Bytes)
deriving DecidableEq, Repr

/-- How the network treats one sent datagram. -/
inductive ReplyPlan where
  /-- The send succeeds and these items are queued on the transport. -/
  | queue (items : List DatagramPlan)
  /-- The send itself fails. -/
  | sendFault
deriving DecidableEq, Repr

/-- The script of a run. -/
structure Script where
  /-- One plan per connect call, in order; `accept` once they run out. -/
  connects : List ConnectPlan := []
  /-- One plan per datagram sent, in order; `defaultReply` once they run out. -/
  replies : List ReplyPlan := []
  defaultReply : ReplyPlan := .queue [.auto]
  /-- The connection id a well-behaved tracker hands out. -/
  connectionId : Nat := 0x00c0ffeedeadbeef
deriving DecidableEq, Repr

/-- What one receive call yields. -/
inductive Delivery where
  | datagram (b : Bytes)
  | fault (reason : String)
deriving DecidableEq, Repr

/-- An open transport, known by the number the connector gave it. -/
structure Transport where
  id : Nat
deriving DecidableEq, Repr

/-- A well-behaved tracker's answer to a sent datagram, keyed on its action. -/
def autoReply (connectionId : Nat) (sent : Bytes) : Bytes :=
  let action := u32At sent 8
  let tid := u32At sent 12
  if action = actionConnect then
    Packet.u32 actionConnect ++ Packet.u32 tid ++ Packet.u64 connectionId
  else if action = actionAnnounce then
    Packet.u32 actionAnnounce ++ Packet.u32 tid ++ Packet.u32 1800 ++ Packet.u32 3 ++
      Packet.u32 7 ++ [10, 0, 0, 1] ++ Packet.u16 6881 ++ [10, 0, 0, 2] ++ Packet.u16 6882
  else if action = actionScrape then
    Packet.u32 actionScrape ++ Packet.u32 tid ++
      ((List.range ((sent.length - 16) / 20)).flatMap fun i =>
        Packet.u32 (i * 10 + 1) ++ Packet.u32 (i * 10 + 2) ++ Packet.u32 (i * 10 + 3))
  else []

/-- The item a plan puts on the transport, in answer to the datagram `sent`. -/
def DatagramPlan.resolve (connectionId : Nat) (sent : Bytes) : DatagramPlan → Delivery
  | auto => .datagram (autoReply connectionId sent)
  | raw b => .datagram b
  | recvFault r => .fault r
  | shaped action tid body =>
    let t := match tid with
      | .exact t => t
      | .offset d => ((u32At sent 12 + d) % Int.ofNat (Nat.pow 2 32)).toNat
    .datagram (Packet.u32 action ++ Packet.u32 t ++ body)

end Tracker

end BitTorrent
