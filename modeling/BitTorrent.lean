import BitTorrent.Bytes.Basic
import BitTorrent.Bytes.Hex
import BitTorrent.Text.Utf8
import BitTorrent.Text.Quoted
import BitTorrent.Bencode.Display
import BitTorrent.Bencode.Error
import BitTorrent.Bencode.Read
import BitTorrent.Bencode.Write
import BitTorrent.Digest.Sha1
import BitTorrent.Net.Address
import BitTorrent.Peer.Bitfield
import BitTorrent.Peer.Frame
import BitTorrent.Text.Numeral
import BitTorrent.Torrent.Error
import BitTorrent.Torrent.Fields
import BitTorrent.Torrent.InfoHash
import BitTorrent.Torrent.Metainfo
import BitTorrent.Torrent.Validation
import BitTorrent.Tracker.Datagram
import BitTorrent.Tracker.Http
import BitTorrent.Tracker.Network
import BitTorrent.Tracker.UdpClient
import BitTorrent.Proofs.KeyOrder
import BitTorrent.Proofs.Decimal
import BitTorrent.Proofs.BigEndian
import BitTorrent.Proofs.Bencode.Tree
import BitTorrent.Proofs.Bencode.ReadSteps
import BitTorrent.Proofs.Bencode.Source
import BitTorrent.Proofs.Bencode.ReadTrees
import BitTorrent.Proofs.Bencode.Readable
import BitTorrent.Proofs.Bencode.RoundTrip
import BitTorrent.Proofs.Bencode.Spans
import BitTorrent.Proofs.Bencode.Delimiting
import BitTorrent.Proofs.Torrent.InfoBytes
import BitTorrent.Proofs.Tracker.Runs
import BitTorrent.Proofs.Tracker.Fields
import BitTorrent.Proofs.Tracker.Calls
import BitTorrent.Proofs.Tracker.Sessions
import BitTorrent.Proofs.Tracker.Transports
import BitTorrent.Proofs.Tracker.ConnectionIds
import BitTorrent.Proofs.Tracker.Strays
import BitTorrent.Proofs.Peer.MessageCodec
import BitTorrent.Proofs.Peer.FrameDecoder
import BitTorrent.Proofs.Peer.Chunking
import BitTorrent.Proofs.Bencode.Bounds
import BitTorrent.Proofs.Peer.BitfieldView
import BitTorrent.Proofs.Peer.FramePrefix
import BitTorrent.Proofs.Tracker.Refusals
import BitTorrent.Proofs.Tracker.Backoff
import BitTorrent.Proofs.Tracker.CompactPeers
import BitTorrent.Proofs.Tracker.Replies
import BitTorrent.Proofs.Tracker.Requests
import BitTorrent.Proofs.Tracker.AnnounceBody
import BitTorrent.Proofs.Tracker.ScrapeBody
import BitTorrent.Proofs.Torrent.Reading
import BitTorrent.Proofs.Torrent.TotalLength
import BitTorrent.Proofs.Url.PercentCodec
import BitTorrent.Proofs.Tracker.Urls
import BitTorrent.Proofs.Url.PercentGrammar
import BitTorrent.Proofs.Torrent.Queries
import BitTorrent.Proofs.Tracker.UdpUrl
import BitTorrent.Proofs.Tracker.Packets
