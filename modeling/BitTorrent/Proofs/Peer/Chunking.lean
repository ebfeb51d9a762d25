import BitTorrent.Proofs.Peer.FrameDecoder
import BitTorrent.Proofs.BigEndian

/-!
# Frames do not depend on how the stream is cut

A stream of frames is the concatenation of their wire forms: the body length in four
big-endian bytes, then the body; a keep-alive is a zero length (`Frame.bytes`). Feed any
beginning of such a stream to a fresh decoder, cut into pieces in any way, and ask for frames
at any points in between: no ask is refused, the frames handed out are the first frames of
the stream in order, and the decoder holds exactly the bytes fed less those of the frames
handed out. Once the whole stream is in, asking hands out the remaining frames and then
nothing, and leaves the decoder empty (`reads_in_order_of_chunks`). The frames are those a
decoder with the given limit accepts (`Frame.Fits`): bodies of 1 to `maxLen` bytes whose
length fits the prefix.

The proof carries one invariant along the run (`Midstream`): the frames handed out begin the
stream, and their bytes followed by the buffer are the bytes fed. A handing over keeps it
trivially; an ask finds in the buffer a beginning of the remaining frames' bytes, so it either
waits, the first remaining frame being incomplete, or hands out exactly that frame
(`decode_on_stream`).

## Main statements

* `decode_frame_append`: a whole frame at the front of the buffer is handed out.
* `decode_on_stream`: an ask on a buffer that begins a stream of frames.
* `Midstream.run`: the invariant along any run of calls.
* `reads_in_order_of_chunks`.
-/

namespace BitTorrent

namespace Peer

namespace Frame

/-! ## Section 1: Frames on the wire -/

/-- The length a frame's prefix announces. -/
def size : Frame → Nat
  | keepAlive => 0
  | message body => body.length

/-- The bytes after a frame's prefix. -/
def body : Frame → Bytes
  | keepAlive => []
  | message body => body

/-- A frame on the wire: its size in four big-endian bytes, then its body. -/
def bytes (f : Frame) : Bytes := Bytes.ofNatBE 4 f.size ++ f.body

/-- A frame a decoder with limit `maxLen` hands out as it was sent: a keep-alive, or a body of
1 to `maxLen` bytes whose length fits the four-byte prefix. -/
def Fits (maxLen : Nat) : Frame → Prop
  | keepAlive => True
  | message body => 0 < body.length ∧ body.length ≤ maxLen ∧ body.length < 2 ^ 32

theorem Fits.size_le {f : Frame} {maxLen : Nat} (h : f.Fits maxLen) : f.size ≤ maxLen := by
  cases f with
  | keepAlive => exact Nat.zero_le _
  | message body => exact h.2.1

theorem Fits.size_lt {f : Frame} {maxLen : Nat} (h : f.Fits maxLen) : f.size < 2 ^ 32 := by
  cases f with
  | keepAlive => decide
  | message body => exact h.2.2

theorem length_bytes (f : Frame) : f.bytes.length = 4 + f.size := by
  cases f <;> simp [bytes, size, body, Bytes.length_ofNatBE]

end Frame

namespace FrameDecoder

/-! ## Section 2: One ask on a stream -/

/-- A buffer that begins with the whole prefix of a frame announces the frame's size. -/
theorem announced_of_prefix {d : FrameDecoder} {f : Frame} {more : Bytes} (hf : f.size < 2 ^ 32)
    (hb : d.buffer <+: f.bytes ++ more) (h4 : 4 ≤ d.buffered) : d.announced = f.size := by
  obtain ⟨t, ht⟩ := hb
  have htake : d.buffer.take 4 = Bytes.ofNatBE 4 f.size := by
    have := congrArg (List.take 4) ht
    rw [List.take_append_of_le_length h4, Frame.bytes, List.append_assoc,
      List.take_left' (Bytes.length_ofNatBE 4 _)] at this
    exact this
  rw [announced, htake, Bytes.toNatBE_ofNatBE]
  exact Nat.mod_eq_of_lt hf

/-- A whole frame at the front of the buffer is handed out, and its bytes dropped. -/
theorem decode_frame_append {d : FrameDecoder} {f : Frame} {rest : Bytes} (hf : f.Fits d.maxLen)
    (hb : d.buffer = f.bytes ++ rest) : d.decode = (.ok (some f), { d with buffer := rest }) := by
  have hlen : d.buffered = 4 + f.size + rest.length := by
    simp [buffered, hb, Frame.length_bytes]
  have hann : d.announced = f.size :=
    announced_of_prefix hf.size_lt ⟨[], by rw [hb, List.append_nil]⟩ (by omega)
  rw [decode_of_complete (hann ▸ hf.size_le) (by omega)]
  have hrest : d.buffer.drop (4 + d.announced) = rest := by
    rw [hb, hann, ← Frame.length_bytes, List.drop_left]
  -- a message body is never empty, so only a keep-alive announces zero
  have hnext : d.nextFrame = f := by
    cases f with
    | keepAlive => simp [nextFrame, hann, Frame.size]
    | message body =>
      have hpos : body.length ≠ 0 := by have := hf.1; omega
      simp [nextFrame, hann, Frame.size, hpos, hb, Frame.bytes, Frame.body, Bytes.length_ofNatBE]
  rw [hnext, hrest]

/-- A buffer holding less than the first frame of what may follow waits for more. -/
theorem decode_short {d : FrameDecoder} {f : Frame} {more : Bytes} (hf : f.Fits d.maxLen)
    (hb : d.buffer <+: f.bytes ++ more) (hlt : d.buffered < f.bytes.length) :
    d.decode = (.ok none, d) := by
  by_cases h4 : d.buffered < 4
  · exact decode_of_lt_four h4
  have hann := announced_of_prefix hf.size_lt hb (by omega)
  rw [Frame.length_bytes] at hlt
  exact decode_of_incomplete (by omega) (hann ▸ hf.size_le) (by omega)

/-- An ask on a buffer that begins the bytes of some frames either waits, leaving the decoder
alone, or hands out the first of them and drops exactly its bytes. -/
theorem decode_on_stream {d : FrameDecoder} {gs : List Frame} (hfit : ∀ g ∈ gs, g.Fits d.maxLen)
    (hb : d.buffer <+: gs.flatMap Frame.bytes) :
    d.decode = (.ok none, d) ∨ ∃ g gs' rest, gs = g :: gs' ∧ d.buffer = g.bytes ++ rest ∧
      d.decode = (.ok (some g), { d with buffer := rest }) := by
  cases gs with
  | nil =>
    left
    apply decode_of_lt_four
    have : d.buffer = [] := List.eq_nil_of_prefix_nil (by simpa using hb)
    simp [buffered, this]
  | cons g gs' =>
    have hg := hfit g (List.mem_cons_self ..)
    rw [List.flatMap_cons] at hb
    by_cases hlt : d.buffered < g.bytes.length
    · exact .inl (decode_short hg hb hlt)
    · -- the buffer holds the whole first frame, so the frame's bytes begin it
      right
      have hpre : g.bytes <+: d.buffer :=
        List.prefix_of_prefix_length_le (List.prefix_append _ _) hb
          (by simp [buffered] at hlt; omega)
      obtain ⟨rest, hrest⟩ := hpre
      exact ⟨g, gs', rest, rfl, hrest.symm, decode_frame_append hg hrest.symm⟩

/-! ## Section 3: The invariant of a run -/

/-- Midway through reading the stream of `fs`: the decoder `d` has handed out the frames
`out`, which begin `fs`, from the bytes `fed`, and holds the rest of them. -/
structure Midstream (fs out : List Frame) (fed : Bytes) (d : FrameDecoder) : Prop where
  first : out <+: fs
  fed_eq : out.flatMap Frame.bytes ++ d.buffer = fed
  fits : ∀ f ∈ fs, f.Fits d.maxLen

section Midstream

variable {fs out : List Frame} {fed : Bytes} {d : FrameDecoder}

/-- The stream is the bytes of the frames handed out, then those of the frames still to come. -/
theorem Midstream.stream_eq (h : Midstream fs out fed d) :
    fs.flatMap Frame.bytes = out.flatMap Frame.bytes ++ (fs.drop out.length).flatMap Frame.bytes := by
  rw [← List.flatMap_append, List.prefix_iff_eq_append.1 h.first]

/-- What is buffered begins the bytes of the frames not yet handed out. -/
theorem Midstream.buffer_starts (h : Midstream fs out fed d) (hfed : fed <+: fs.flatMap Frame.bytes) :
    d.buffer <+: (fs.drop out.length).flatMap Frame.bytes := by
  rw [← h.fed_eq, h.stream_eq] at hfed
  exact (List.prefix_append_right_inj _).1 hfed

/-- Once the whole stream is fed, what is buffered is the bytes of the frames not yet handed
out. -/
theorem Midstream.buffer_of_all (h : Midstream fs out (fs.flatMap Frame.bytes) d) :
    d.buffer = (fs.drop out.length).flatMap Frame.bytes := by
  have hfed := h.fed_eq
  rw [h.stream_eq] at hfed
  exact List.append_cancel_left hfed

/-- One call keeps the invariant, with the frame it hands out, if any, added. -/
theorem Midstream.next {c : Call} (h : Midstream fs out fed d)
    (hfed : fed ++ c.bytes <+: fs.flatMap Frame.bytes) :
    ∃ os : List (Option Frame), (d.answer c).toList = os.map .ok ∧
      Midstream fs (out ++ os.filterMap id) (fed ++ c.bytes) (d.step c) := by
  cases c with
  | extend data =>
    refine ⟨[], rfl, by simpa using h.first, ?_, by simpa [step] using h.fits⟩
    simp [step, Call.bytes, ← h.fed_eq]
  | decode =>
    have hb := h.buffer_starts (by simpa [Call.bytes] using hfed)
    rcases decode_on_stream (fun g hg => h.fits g (List.mem_of_mem_drop hg)) hb with
      hnone | ⟨g, gs', rest', hgs, hbuf, hd⟩
    · refine ⟨[none], by simp [answer, hnone], ?_⟩
      simpa [step, hnone, Call.bytes] using h
    · -- the frame handed out is the next one of the stream
      have hfs : fs = out ++ g :: gs' := by rw [← hgs, List.prefix_iff_eq_append.1 h.first]
      refine ⟨[some g], by simp [answer, hd], ⟨gs', by simp [hfs]⟩, ?_,
        by simpa [step, hd] using h.fits⟩
      simp [step, hd, Call.bytes, ← h.fed_eq, hbuf]

/-- A run keeps the invariant: no ask is refused, and the frames handed out are the next ones
of the stream. -/
theorem Midstream.run {calls : List Call} (h : Midstream fs out fed d)
    (hfed : fed ++ calls.flatMap Call.bytes <+: fs.flatMap Frame.bytes) :
    ∃ os : List (Option Frame), d.answers calls = os.map .ok ∧
      Midstream fs (out ++ os.filterMap id) (fed ++ calls.flatMap Call.bytes) (d.after calls) := by
  induction calls generalizing out fed d with
  | nil => exact ⟨[], rfl, by simpa [after] using h⟩
  | cons c cs ih =>
    rw [List.flatMap_cons, ← List.append_assoc] at hfed
    obtain ⟨os, hans, h'⟩ := h.next (List.IsPrefix.trans (List.prefix_append _ _) hfed)
    obtain ⟨os', hans', h''⟩ := ih h' hfed
    refine ⟨os ++ os', by simp [answers, hans, hans'], ?_⟩
    simpa [after, List.flatMap_cons, List.append_assoc] using h''

end Midstream

/-! ## Section 4: Draining the decoder -/

/-- A decoder that waits keeps waiting while nothing is handed over. -/
theorem answers_of_idle {d : FrameDecoder} (h : d.decode = (.ok none, d)) (n : Nat) :
    d.answers (List.replicate n .decode) = List.replicate n (.ok none) := by
  induction n with
  | zero => rfl
  | succ n ih => simp [List.replicate_succ, answers, answer, step, h, ih]

/-- A decoder holding the bytes of whole frames hands them out one ask each, then waits, and
is left empty. -/
theorem drain {d : FrameDecoder} {gs : List Frame} (hfit : ∀ g ∈ gs, g.Fits d.maxLen)
    (hb : d.buffer = gs.flatMap Frame.bytes) (n : Nat) :
    d.answers (List.replicate (gs.length + n) .decode) =
        gs.map (fun g => .ok (some g)) ++ List.replicate n (.ok none) ∧
      (d.after (List.replicate gs.length .decode)).buffer = [] := by
  induction gs generalizing d with
  | nil =>
    have hidle := decode_of_lt_four (d := d) (by simp [buffered, hb])
    exact ⟨by simpa using answers_of_idle hidle n, by simpa [after] using hb⟩
  | cons g gs ih =>
    have hd := decode_frame_append (hfit g (List.mem_cons_self ..)) (by rw [hb, List.flatMap_cons])
    obtain ⟨hans, hbuf⟩ := ih (d := { d with buffer := gs.flatMap Frame.bytes })
      (fun g' hg' => hfit g' (List.mem_cons_of_mem _ hg')) rfl
    have hlen : (g :: gs).length + n = (gs.length + n) + 1 := by simp; omega
    refine ⟨?_, ?_⟩
    · rw [hlen, List.replicate_succ]
      simp [answers, answer, step, hd, hans]
    · simpa [List.replicate_succ, after, step, hd] using hbuf

/-! ## Section 5: Any cut of the stream -/

/-- The frames handed out among some answers, in order. -/
def framesOf (as : List (Except PeerError (Option Frame))) : List Frame :=
  as.filterMap fun
    | .ok (some f) => some f
    | _ => none

@[simp] theorem framesOf_map_ok (os : List (Option Frame)) :
    framesOf (os.map .ok) = os.filterMap id := by
  induction os with
  | nil => rfl
  | cons o os ih => cases o <;> simp [framesOf] at ih ⊢ <;> exact ih

/-- What a run of `calls` from the empty decoder `d` does when the bytes it hands over begin
the stream of `fs`. -/
structure ReadsInOrder (d : FrameDecoder) (fs : List Frame) (calls : List Call) : Prop where
  /-- No ask is refused. -/
  no_refusal : ∀ a ∈ d.answers calls, ∃ o, a = .ok o
  /-- The frames handed out are the first frames of the stream, in order. -/
  in_order : framesOf (d.answers calls) <+: fs
  /-- The decoder holds the bytes handed over less those of the frames handed out. -/
  buffered_eq : (d.after calls).buffered =
    (calls.flatMap Call.bytes).length - ((framesOf (d.answers calls)).flatMap Frame.bytes).length
  /-- With the whole stream in, asks hand out the remaining frames, then nothing, and leave
  nothing buffered. -/
  drains : calls.flatMap Call.bytes = fs.flatMap Frame.bytes → ∀ n : Nat,
    (d.after calls).answers
        (List.replicate ((fs.drop (framesOf (d.answers calls)).length).length + n) .decode) =
      (fs.drop (framesOf (d.answers calls)).length).map (fun f => .ok (some f)) ++
        List.replicate n (.ok none) ∧
    ((d.after calls).after
      (List.replicate (fs.drop (framesOf (d.answers calls)).length).length .decode)).buffered = 0

/-- Frames do not depend on how the stream is cut: for any frames a decoder with limit `maxLen`
accepts, and any run of calls on a fresh such decoder that hands over a beginning of their
stream in pieces of any size, with asks anywhere in between, the run reads the frames in
order. -/
theorem reads_in_order_of_chunks {maxLen : Nat} {fs : List Frame} {calls : List Call}
    (hfs : ∀ f ∈ fs, f.Fits maxLen) (hfed : calls.flatMap Call.bytes <+: fs.flatMap Frame.bytes) :
    ReadsInOrder { maxLen } fs calls := by
  have h0 : Midstream fs [] [] ({ maxLen } : FrameDecoder) := ⟨List.nil_prefix, rfl, hfs⟩
  have hfed' : [] ++ calls.flatMap Call.bytes <+: fs.flatMap Frame.bytes := by simpa using hfed
  obtain ⟨os, hans, h⟩ := h0.run hfed'
  simp only [List.nil_append] at h
  have hframes : framesOf (({ maxLen } : FrameDecoder).answers calls) = os.filterMap id := by
    rw [hans, framesOf_map_ok]
  refine ⟨?_, ?_, ?_, ?_⟩
  · intro a ha
    rw [hans] at ha
    obtain ⟨o, -, rfl⟩ := List.mem_map.1 ha
    exact ⟨o, rfl⟩
  · rw [hframes]
    exact h.first
  · have := congrArg List.length h.fed_eq
    rw [List.length_append] at this
    rw [hframes, buffered]
    omega
  · intro hall n
    rw [hframes]
    rw [hall] at h
    obtain ⟨hd1, hd2⟩ := drain (fun g hg => h.fits g (List.mem_of_mem_drop hg)) h.buffer_of_all n
    exact ⟨hd1, by simp only [buffered, hd2, List.length_nil]⟩

/-- A keep-alive and a one-byte message cut across three pieces, the second piece ending inside
the message's length prefix. -/
theorem frames_read_across_chunks :
    ReadsInOrder { maxLen := 16 } [.keepAlive, .message [0]]
      [.extend [0, 0], .decode, .extend [0, 0, 0, 0, 0, 1], .decode, .decode, .extend [0],
        .decode] :=
  reads_in_order_of_chunks (by simp [Frame.Fits]) ⟨[], by decide⟩

end FrameDecoder

end Peer

end BitTorrent
