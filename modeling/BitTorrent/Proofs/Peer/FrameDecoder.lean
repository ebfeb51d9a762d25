import BitTorrent.Peer.Frame

/-!
# What one decode does, and runs of calls

The frame decoder reads the first four buffered bytes as the announced length. With fewer than
four bytes, or with the whole frame not yet in, it asks for more and leaves its buffer alone; a
length above its limit is refused, also leaving the buffer alone; otherwise it hands out the
frame and drops its bytes (`decode_cases`). Every later statement about the decoder is read
off this one case split.

A holder of the decoder makes a run of calls, each handing over bytes or asking for a frame
(`Call`); `answers` lists what the asks return and `after` is the decoder at the end.

The refusal sticks (`decode_refusal_sticks`): a decode that answers nothing or refuses keeps
the decoder as it was; it refuses exactly when four bytes are in and announce more than the
limit, whatever follows them; and once it has refused, every later decode of any run refuses
in the same words, with every byte kept.

## Main statements

* `decode_cases`: the three things a decode can do.
* `run_of_too_large`: a run on a decoder whose announced length is too large.
* `decode_refusal_sticks`.
-/

namespace BitTorrent

namespace Peer

namespace FrameDecoder

/-! ## Section 1: One decode -/

/-- The length the first four buffered bytes announce. -/
def announced (d : FrameDecoder) : Nat := Bytes.toNatBE (d.buffer.take 4)

/-- The frame at the front of a buffer that holds it whole: a keep-alive for a zero length,
else the announced number of bytes after the length. -/
def nextFrame (d : FrameDecoder) : Frame :=
  if d.announced = 0 then .keepAlive else .message ((d.buffer.drop 4).take d.announced)

theorem decode_eq (d : FrameDecoder) : d.decode =
    if d.buffered < 4 then (.ok none, d)
    else if d.maxLen < d.announced then (.error (.frameTooLarge d.announced d.maxLen), d)
    else if d.buffered < 4 + d.announced then (.ok none, d)
    else (.ok (some d.nextFrame), { d with buffer := d.buffer.drop (4 + d.announced) }) := by
  unfold decode nextFrame buffered announced
  -- a keep-alive drops the four length bytes, a message those and its body
  by_cases h0 : Bytes.toNatBE (d.buffer.take 4) = 0
  · simp [h0]
  · simp [h0, List.drop_drop]

theorem decode_of_lt_four {d : FrameDecoder} (h : d.buffered < 4) : d.decode = (.ok none, d) := by
  rw [decode_eq, if_pos h]

theorem decode_of_too_large {d : FrameDecoder} (h4 : 4 ≤ d.buffered) (h : d.maxLen < d.announced) :
    d.decode = (.error (.frameTooLarge d.announced d.maxLen), d) := by
  rw [decode_eq, if_neg (Nat.not_lt.2 h4), if_pos h]

theorem decode_of_incomplete {d : FrameDecoder} (h4 : 4 ≤ d.buffered)
    (hle : d.announced ≤ d.maxLen) (h : d.buffered < 4 + d.announced) :
    d.decode = (.ok none, d) := by
  rw [decode_eq, if_neg (Nat.not_lt.2 h4), if_neg (Nat.not_lt.2 hle), if_pos h]

theorem decode_of_complete {d : FrameDecoder} (hle : d.announced ≤ d.maxLen)
    (h : 4 + d.announced ≤ d.buffered) :
    d.decode = (.ok (some d.nextFrame), { d with buffer := d.buffer.drop (4 + d.announced) }) := by
  rw [decode_eq, if_neg (by omega), if_neg (Nat.not_lt.2 hle), if_neg (Nat.not_lt.2 h)]

/-- A decode asks for more bytes, refuses a length above the limit, or hands out the frame at
the front of the buffer and drops its bytes. -/
theorem decode_cases (d : FrameDecoder) :
    ((d.buffered < 4 ∨ d.announced ≤ d.maxLen) ∧ d.decode = (.ok none, d)) ∨
    (4 ≤ d.buffered ∧ d.maxLen < d.announced ∧
      d.decode = (.error (.frameTooLarge d.announced d.maxLen), d)) ∨
    (d.announced ≤ d.maxLen ∧ 4 + d.announced ≤ d.buffered ∧
      d.decode = (.ok (some d.nextFrame), { d with buffer := d.buffer.drop (4 + d.announced) })) := by
  by_cases h4 : d.buffered < 4
  · exact .inl ⟨.inl h4, decode_of_lt_four h4⟩
  by_cases hbig : d.maxLen < d.announced
  · exact .inr (.inl ⟨by omega, hbig, decode_of_too_large (by omega) hbig⟩)
  by_cases hshort : d.buffered < 4 + d.announced
  · exact .inl ⟨.inr (by omega), decode_of_incomplete (by omega) (by omega) hshort⟩
  · exact .inr (.inr ⟨by omega, by omega, decode_of_complete (by omega) (by omega)⟩)

@[simp] theorem buffer_extend (d : FrameDecoder) (data : Bytes) :
    (d.extend data).buffer = d.buffer ++ data := rfl

@[simp] theorem maxLen_extend (d : FrameDecoder) (data : Bytes) :
    (d.extend data).maxLen = d.maxLen := rfl

/-- Bytes received after the length prefix do not change the length it announces. -/
theorem announced_extend {d : FrameDecoder} (h : 4 ≤ d.buffered) (data : Bytes) :
    (d.extend data).announced = d.announced := by
  simp only [announced, buffer_extend,
    List.take_append_of_le_length (show 4 ≤ d.buffer.length from h)]

/-! ## Section 2: Runs of calls -/

/-- A call on the decoder: hand it received bytes, or ask it for a frame. -/
inductive Call where
  | extend (data : Bytes)
  | decode
deriving DecidableEq, Repr

/-- The bytes a call hands over. -/
def Call.bytes : Call → Bytes
  | .extend data => data
  | .decode => []

/-- The decoder after one call. -/
def step (d : FrameDecoder) : Call → FrameDecoder
  | .extend data => d.extend data
  | .decode => d.decode.2

/-- What a call returns: an ask its result, a handing over nothing. -/
def answer (d : FrameDecoder) : Call → Option (Except PeerError (Option Frame))
  | .extend _ => none
  | .decode => some d.decode.1

/-- The decoder after a run of calls. -/
def after (d : FrameDecoder) : List Call → FrameDecoder
  | [] => d
  | c :: cs => (d.step c).after cs

/-- What the asks of a run return, in order. -/
def answers (d : FrameDecoder) : List Call → List (Except PeerError (Option Frame))
  | [] => []
  | c :: cs => (d.answer c).toList ++ (d.step c).answers cs

/-! ## Section 3: A refusal sticks -/

/-- On a decoder whose four buffered bytes announce too much, every ask of a run is refused
with that length, and every byte handed over is kept. -/
theorem run_of_too_large {d : FrameDecoder} (h4 : 4 ≤ d.buffered) (h : d.maxLen < d.announced)
    (calls : List Call) :
    (∀ a ∈ d.answers calls, a = .error (.frameTooLarge d.announced d.maxLen)) ∧
      (d.after calls).buffer = d.buffer ++ calls.flatMap Call.bytes := by
  induction calls generalizing d with
  | nil => simp [answers, after]
  | cons c cs ih =>
    cases c with
    | extend data =>
      -- the length prefix is already whole, so new bytes only lengthen the body
      have h4' : 4 ≤ (d.extend data).buffered := by simp [buffered] at h4 ⊢; omega
      have hsame := announced_extend h4 data
      obtain ⟨hans, hbuf⟩ := ih h4' (by rw [hsame]; exact h)
      rw [hsame, maxLen_extend] at hans
      refine ⟨by simpa [answers, answer, step] using hans, ?_⟩
      simp [after, step, hbuf, Call.bytes]
    | decode =>
      have hd := decode_of_too_large h4 h
      obtain ⟨hans, hbuf⟩ := ih h4 h
      refine ⟨?_, ?_⟩
      · simp only [answers, answer, step, hd]
        simpa using hans
      · simp [after, step, hd, hbuf, Call.bytes]

/-- A decode that answers nothing or refuses keeps the decoder as it was. It refuses exactly
when four bytes are buffered and announce more than the limit, however many bytes follow
them, and then as too large with that length and the limit. Once it has refused, every decode
of any later run, whatever is handed over in between, refuses in the same words, and no
byte is ever dropped. -/
theorem decode_refusal_sticks (d : FrameDecoder) :
    ((d.decode.1 = .ok none ∨ ∃ e, d.decode.1 = .error e) → d.decode.2 = d) ∧
    (∀ e, d.decode.1 = .error e ↔
      4 ≤ d.buffered ∧ d.maxLen < d.announced ∧ e = .frameTooLarge d.announced d.maxLen) ∧
    (∀ e, d.decode.1 = .error e → ∀ calls : List Call,
      (∀ a ∈ d.answers (.decode :: calls), a = .error e) ∧
      (d.after (.decode :: calls)).buffer = d.buffer ++ calls.flatMap Call.bytes) := by
  have herr : ∀ e, d.decode.1 = .error e ↔
      4 ≤ d.buffered ∧ d.maxLen < d.announced ∧ e = .frameTooLarge d.announced d.maxLen := by
    intro e
    rcases decode_cases d with ⟨hok, h⟩ | ⟨h4, hbig, h⟩ | ⟨hle, -, h⟩
    · simp only [h, reduceCtorEq, false_iff]
      omega
    · simp [h, h4, hbig, eq_comm]
    · simp only [h, reduceCtorEq, false_iff]
      omega
  refine ⟨?_, herr, ?_⟩
  · rintro (hnone | ⟨e, he⟩)
    · rcases decode_cases d with ⟨-, h⟩ | ⟨-, -, h⟩ | ⟨-, -, h⟩
      · rw [h]
      · rw [h]
      · rw [h] at hnone
        cases hnone
    · obtain ⟨h4, hbig, -⟩ := (herr e).1 he
      rw [decode_of_too_large h4 hbig]
  · intro e he calls
    obtain ⟨h4, hbig, rfl⟩ := (herr e).1 he
    simpa [Call.bytes] using run_of_too_large h4 hbig (.decode :: calls)

example : ({ buffer := [0, 0, 0, 17], maxLen := 16 } : FrameDecoder).answers
    [.decode, .extend [1, 2], .decode] =
      [.error (.frameTooLarge 17 16), .error (.frameTooLarge 17 16)] := by
  rfl

end FrameDecoder

end Peer

end BitTorrent
