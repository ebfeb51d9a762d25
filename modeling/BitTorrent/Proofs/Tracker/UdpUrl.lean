import BitTorrent.Tracker.Datagram
import BitTorrent.Proofs.Tracker.Urls

/-!
# UDP tracker URLs

A UDP tracker is named by `udp://host:port`, optionally followed by a path or a query. The
authority is what follows `udp://` up to the first `/` or `?`; the port is what follows its last
`:`, so a host may hold colons of its own (an IPv6 address, bracketed or not). The port is a
16-bit number in the form the numeral reader accepts: an optional `+` and decimal digits,
leading zeros allowed. A host in brackets loses them, and the host must not be empty.

`UdpTrackerUrl` states this grammar without the reader's steps: `parseUdpUrl` accepts exactly
the URLs of the grammar and gives back their host and port.

## Main definitions

* `Tracker.PortNumeral`: a decimal numeral of a 16-bit port.
* `Tracker.Unbracketed`: a host with its brackets, if it has them, taken off.
* `Tracker.UdpTrackerUrl`: a UDP tracker URL naming a host and a port.

## Main statements

* `Text.parseUnsigned?_ten_eq_some_iff`: what the numeral reader accepts in base ten.
* `Tracker.parseUdpUrl_eq_ok_iff`: `parseUdpUrl` reads exactly the grammar.
* `Tracker.udp_url_host_port`: every host and port come back, bracketed or not and before any
  path or query, and every accepted URL has the grammar's shape.
-/

namespace BitTorrent

/-! ## Section 1: Decimal numerals -/

namespace Text

/-- In base ten a decimal digit adds itself to ten times what was read, and any other character
stops the reading: a letter is a digit worth ten or more. -/
theorem digitValue?_step (acc : Nat) (c : Char) :
    (do let d ← digitValue? c; if d < 10 then some (acc * 10 + d) else none) =
      if c.isDigit then some (10 * acc + (c.toNat - 48)) else none := by
  unfold digitValue?
  simp only [Char.isDigit, Char.le_def, UInt32.le_iff_toNat_le, Char.toNat_val, ge_iff_le,
    Char.reduceVal, UInt32.reduceToNat]
  by_cases hd : 48 ≤ c.toNat ∧ c.toNat ≤ 57
  · simp [hd, Nat.mul_comm]
    omega
  · have hnot : (decide (48 ≤ c.toNat) && decide (c.toNat ≤ 57)) = false := by simpa using hd
    rw [hnot, if_neg hd]
    -- letters are read as digits from ten on, which base ten refuses
    by_cases ha : 97 ≤ c.toNat ∧ c.toNat ≤ 122
    · simp [ha]
      omega
    · by_cases hA : 65 ≤ c.toNat ∧ c.toNat ≤ 90
      · simp [ha, hA]
        omega
      · simp [ha, hA]

/-- Reading digits one by one from `acc` succeeds exactly on decimal digits, with the value
`Nat.ofDigitChars` gives. -/
theorem foldlM_decimal {f : Nat → Char → Option Nat}
    (hf : ∀ acc c, f acc c = if c.isDigit then some (10 * acc + (c.toNat - 48)) else none) :
    ∀ (cs : List Char) (acc v : Nat),
      cs.foldlM f acc = some v ↔ (∀ c ∈ cs, c.isDigit) ∧ Nat.ofDigitChars 10 cs acc = v
  | [], acc, v => by simp
  | c :: cs, acc, v => by
    rw [List.foldlM_cons, hf]
    by_cases hc : c.isDigit
    · simp [hc, foldlM_decimal hf cs, Nat.ofDigitChars_cons]
    · simp [hc]

theorem digitsValue?_ten_eq_some_iff (cs : List Char) (v : Nat) :
    digitsValue? 10 cs = some v ↔
      cs ≠ [] ∧ (∀ c ∈ cs, c.isDigit) ∧ Nat.ofDigitChars 10 cs 0 = v := by
  unfold digitsValue?
  split
  · next h => simp [List.isEmpty_iff.1 h]
  · next h =>
    have hne : cs ≠ [] := by simpa [List.isEmpty_iff] using h
    rw [foldlM_decimal digitValue?_step]
    simp [hne]

/-- A run of digits read after an optional `+` is one run: `+` is no digit. -/
theorem numeral_digits_unique {s ds ds₂ : List Char} (h : s = ds ∨ s = '+' :: ds)
    (h₂ : s = ds₂ ∨ s = '+' :: ds₂) (hd : ∀ c ∈ ds, c.isDigit) (hd₂ : ∀ c ∈ ds₂, c.isDigit) :
    ds = ds₂ := by
  have hplus : ('+').isDigit = false := by decide
  rcases h with rfl | rfl <;> rcases h₂ with h₂ | h₂
  · exact h₂
  · exact absurd (hd '+' (h₂ ▸ List.mem_cons_self)) (by simp [hplus])
  · exact absurd (hd₂ '+' (h₂ ▸ List.mem_cons_self)) (by simp [hplus])
  · exact (List.cons.inj h₂).2

/-- The numeral reader in base ten accepts an optional `+` and one or more decimal digits whose
value is at most the bound, and gives that value. -/
theorem parseUnsigned?_ten_eq_some_iff (bound : Nat) (s : String) (v : Nat) :
    parseUnsigned? 10 bound s = some v ↔
      ∃ ds, (s.toList = ds ∨ s.toList = '+' :: ds) ∧ ds ≠ [] ∧ (∀ c ∈ ds, c.isDigit) ∧
        Nat.ofDigitChars 10 ds 0 = v ∧ v ≤ bound := by
  unfold parseUnsigned?
  dsimp only
  split
  · next w hw =>
    -- the digits after an optional sign are read as `w`
    obtain ⟨ds, hs, hne, hdig, hval⟩ : ∃ ds, (s.toList = ds ∨ s.toList = '+' :: ds) ∧
        ds ≠ [] ∧ (∀ c ∈ ds, c.isDigit) ∧ Nat.ofDigitChars 10 ds 0 = w := by
      split at hw
      · next rest hrest => exact ⟨rest, .inr hrest, (digitsValue?_ten_eq_some_iff rest w).1 hw⟩
      · exact ⟨s.toList, .inl rfl, (digitsValue?_ten_eq_some_iff _ w).1 hw⟩
    constructor
    · intro h
      split at h
      · next hle =>
        cases h
        exact ⟨ds, hs, hne, hdig, hval, hle⟩
      · cases h
    · rintro ⟨ds', hs', -, hdig', hval', hle⟩
      have hw' : w = v := by
        rw [← hval, ← hval', numeral_digits_unique hs hs' hdig hdig']
      subst hw'
      simp [hle]
  · next hw =>
    constructor
    · intro h
      cases h
    rintro ⟨ds, hs, hne, hdig, hval, -⟩
    -- the digits after the sign would be read
    have hread : digitsValue? 10 ds = some v :=
      (digitsValue?_ten_eq_some_iff ds v).2 ⟨hne, hdig, hval⟩
    split at hw
    · next rest hrest =>
      rcases hs with hs | hs
      · have := hdig '+' (by simp [← hs, hrest])
        exact absurd this (by decide)
      · rw [hrest, List.cons.injEq] at hs
        rw [hs.2] at hw
        rw [hw] at hread
        cases hread
    · next hnot =>
      rcases hs with hs | hs
      · rw [hs] at hw
        rw [hw] at hread
        cases hread
      · exact absurd hs (hnot ds)

end Text

namespace Tracker

/-! ## Section 2: The grammar of UDP tracker URLs -/

/-- A numeral of a 16-bit port: an optional `+`, then one or more decimal digits whose value is
`port`, at most `65535`. Leading zeros are allowed. -/
def PortNumeral (P : List Char) (port : Nat) : Prop :=
  ∃ ds, (P = ds ∨ P = '+' :: ds) ∧ ds ≠ [] ∧ (∀ c ∈ ds, c.isDigit) ∧
    Nat.ofDigitChars 10 ds 0 = port ∧ port ≤ 65535

/-- `host` is the host text `H` of an authority with the brackets around it taken off, if it
has them. -/
def Unbracketed (H host : List Char) : Prop :=
  H = '[' :: host ++ [']'] ∨ (H = host ∧ ∀ x, H ≠ '[' :: x ++ [']'])

/-- `url` names the UDP tracker at `host` and `port`: it is `udp://`, an authority, and then
nothing or a path or a query (from a `/` or a `?` on). The authority is a host text without `/`
or `?`, a `:` and a numeral of the port; the host text is `host`, bracketed or not, and `host`
is not empty. -/
def UdpTrackerUrl (url host : String) (port : Nat) : Prop :=
  ∃ H P r : List Char, url.toList = "udp://".toList ++ H ++ ':' :: P ++ r ∧
    (∀ c ∈ H, c ≠ '/' ∧ c ≠ '?') ∧ (r = [] ∨ r.head? = some '/' ∨ r.head? = some '?') ∧
    PortNumeral P port ∧ Unbracketed H host.toList ∧ host ≠ ""

theorem PortNumeral.not_separator {P : List Char} {port : Nat} (h : PortNumeral P port) :
    ∀ c ∈ P, c ≠ '/' ∧ c ≠ '?' ∧ c ≠ ':' := by
  obtain ⟨ds, hP | hP, -, hdig, -⟩ := h <;> intro c hc <;> subst hP
  · have := hdig c hc
    refine ⟨?_, ?_, ?_⟩ <;> (rintro rfl; exact absurd this (by decide))
  · rcases List.mem_cons.1 hc with rfl | hc
    · decide
    · have := hdig c hc
      refine ⟨?_, ?_, ?_⟩ <;> (rintro rfl; exact absurd this (by decide))

theorem unbracketed_of_getLast? {rest host : List Char} (h : rest.getLast? = some ']') :
    Unbracketed ('[' :: rest) host ↔ host = rest.dropLast := by
  obtain ⟨ys, rfl⟩ := List.getLast?_eq_some_iff.1 h
  rw [List.dropLast_concat]
  constructor
  · rintro (h | ⟨-, hno⟩)
    · simp only [List.cons_append, List.cons.injEq, List.append_cancel_right_eq, true_and] at h
      exact h.symm
    · exact absurd rfl (hno ys)
  · rintro rfl
    exact .inl rfl

theorem unbracketed_of_not_bracketed {H host : List Char} (h : ∀ x, H ≠ '[' :: x ++ [']']) :
    Unbracketed H host ↔ host = H := by
  constructor
  · rintro (hb | ⟨rfl, -⟩)
    · exact absurd hb (h host)
    · rfl
  · rintro rfl
    exact .inr ⟨rfl, h⟩

/-! ## Section 3: Reading the authority -/

/-- Reading up to the first `/` or `?` stops at the end of an authority that has neither. -/
theorem takeWhile_authority {A r : List Char} (hA : ∀ c ∈ A, c ≠ '/' ∧ c ≠ '?')
    (hr : r = [] ∨ r.head? = some '/' ∨ r.head? = some '?') :
    (A ++ r).takeWhile (fun c => decide (c ≠ '/' ∧ c ≠ '?')) = A := by
  rw [List.takeWhile_append_of_pos (by simpa using hA)]
  cases r with
  | nil => simp
  | cons x xs =>
    -- the rest starts with `/` or `?`
    have hx : x = '/' ∨ x = '?' := by simpa using hr
    rcases hx with rfl | rfl <;> simp

/-- Every text after `udp://` is its authority, up to the first `/` or `?`, and a rest that is
empty or starts there. -/
theorem exists_authority (rest : List Char) :
    ∃ r, rest = rest.takeWhile (fun c => decide (c ≠ '/' ∧ c ≠ '?')) ++ r ∧
      (r = [] ∨ r.head? = some '/' ∨ r.head? = some '?') := by
  refine ⟨rest.dropWhile fun c => decide (c ≠ '/' ∧ c ≠ '?'), List.takeWhile_append_dropWhile.symm,
    ?_⟩
  have hhead := List.head?_dropWhile_not (fun c => decide (c ≠ '/' ∧ c ≠ '?')) rest
  split at hhead
  · next x hx =>
    right
    rw [hx]
    by_cases hs : x = '/'
    · exact .inl (by rw [hs])
    · exact .inr (by simp_all)
  · next hx => exact .inl (List.head?_eq_none_iff.1 hx)

/-- A URL that `parseUdpUrl` accepts starts with `udp://`, and its authority holds a `:`. -/
theorem exists_authority_colon {url : String} {target : String × Nat}
    (h : parseUdpUrl url = .ok target) :
    ∃ rest, url.toList = "udp://".toList ++ rest ∧
      ':' ∈ rest.takeWhile (fun c => decide (c ≠ '/' ∧ c ≠ '?')) := by
  unfold parseUdpUrl at h
  dsimp only at h
  split at h
  · cases h
  · next hpre =>
    split at h
    · cases h
    · next hcolon =>
      obtain ⟨rest, hrest⟩ : "udp://".toList <+: url.toList := by simpa using hpre
      have hdrop : url.toList.drop "udp://".toList.length = rest := by
        rw [← hrest, List.drop_left]
      refine ⟨rest, hrest.symm, ?_⟩
      rw [← hdrop]
      simpa using hcolon

/-! ## Section 4: `parseUdpUrl` reads the grammar -/

/-- The last step of `parseUdpUrl`: a host text that is not empty is returned with the port. -/
theorem hostResult_eq_ok_iff (url : String) (hostText : List Char) (n : Nat) (host : String)
    (port : Nat) :
    ((if hostText.isEmpty then Except.error (TrackerError.invalidUrl url)
      else Except.ok (String.ofList hostText, n)) = .ok (host, port)) ↔
      n = port ∧ host.toList = hostText ∧ host ≠ "" := by
  cases hostText with
  | nil => simp
  | cons c cs =>
    simp only [List.isEmpty_cons, Bool.false_eq_true, if_false, Except.ok.injEq, Prod.mk.injEq]
    constructor
    · rintro ⟨rfl, rfl⟩
      simp
    · rintro ⟨rfl, h, -⟩
      rw [← h, String.ofList_toList]
      exact ⟨rfl, rfl⟩

/-- What `parseUdpUrl` makes of a URL cut into host text, port text and rest: the port text's
number and the host text without its brackets, when that host is not empty. -/
theorem parseUdpUrl_split {url : String} {H P r : List Char}
    (hurl : url.toList = "udp://".toList ++ H ++ ':' :: P ++ r)
    (hH : ∀ c ∈ H, c ≠ '/' ∧ c ≠ '?') (hP : ∀ c ∈ P, c ≠ '/' ∧ c ≠ '?' ∧ c ≠ ':')
    (hr : r = [] ∨ r.head? = some '/' ∨ r.head? = some '?') (host : String) (port : Nat) :
    parseUdpUrl url = .ok (host, port) ↔
      Text.parseUnsigned? 10 0xFFFF (String.ofList P) = some port ∧
        Unbracketed H host.toList ∧ host ≠ "" := by
  have hA : ∀ c ∈ H ++ ':' :: P, c ≠ '/' ∧ c ≠ '?' := by
    intro c hc
    rcases List.mem_append.1 hc with hc | hc
    · exact hH c hc
    · rcases List.mem_cons.1 hc with rfl | hc
      · decide
      · exact ⟨(hP c hc).1, (hP c hc).2.1⟩
  have hpre : "udp://".toList.isPrefixOf url.toList = true := by
    rw [hurl, List.append_assoc, List.isPrefixOf_iff_prefix]
    exact List.prefix_append _ _
  have hdrop : url.toList.drop "udp://".toList.length = H ++ ':' :: P ++ r := by
    rw [hurl, List.append_assoc, List.append_assoc, List.drop_left]
    simp
  have hauth := takeWhile_authority hA hr
  -- the port text has no `:`, so the last `:` of the authority is the one before it
  have hcolon : (H ++ ':' :: P).contains ':' = true := by simp
  have hport : ((H ++ ':' :: P).reverse.takeWhile (· ≠ ':')).reverse = P := by
    rw [takeWhile_reverse_last ':' H P (fun h => (hP ':' h).2.2 rfl), List.reverse_reverse]
  have hhost : (H ++ ':' :: P).take ((H ++ ':' :: P).length - P.length - 1) = H := by
    rw [List.take_left' (by simp; omega)]
  unfold parseUdpUrl
  simp only [hpre, hdrop, hauth, hcolon, hport, hhost, Bool.not_true, Bool.false_eq_true,
    if_false]
  rcases hnum : Text.parseUnsigned? 10 65535 (String.ofList P) with _ | n
  · simp
  · simp only [Option.some.injEq]
    -- brackets come off only a host text that both starts and ends with one
    split
    · next rest =>
      split
      · next hlast =>
        rw [hostResult_eq_ok_iff, unbracketed_of_getLast? hlast]
      · next hlast =>
        have hno : ∀ x, '[' :: rest ≠ '[' :: x ++ [']'] := by
          intro x hx
          apply hlast
          rw [List.cons.inj hx |>.2]
          simp
        rw [hostResult_eq_ok_iff, unbracketed_of_not_bracketed hno]
    · next hnot =>
      have hno : ∀ x, H ≠ '[' :: x ++ [']'] := fun x hx => hnot _ hx
      rw [hostResult_eq_ok_iff, unbracketed_of_not_bracketed hno]

/-- `parseUdpUrl` accepts exactly the UDP tracker URLs, and gives back the host and port they
name. -/
theorem parseUdpUrl_eq_ok_iff (url host : String) (port : Nat) :
    parseUdpUrl url = .ok (host, port) ↔ UdpTrackerUrl url host port := by
  constructor
  · intro h
    -- cut the URL at the end of its authority, and the authority at its last `:`
    obtain ⟨rest, hurl, hcolon⟩ := exists_authority_colon h
    obtain ⟨r, hrest, hr⟩ := exists_authority rest
    obtain ⟨H, P, hA, hP⟩ := exists_last_occurrence hcolon
    have hsep : ∀ c ∈ H ++ ':' :: P, c ≠ '/' ∧ c ≠ '?' := by
      intro c hc
      have hall : (rest.takeWhile fun c => decide (c ≠ '/' ∧ c ≠ '?')).all
          (fun c => decide (c ≠ '/' ∧ c ≠ '?')) = true := List.all_takeWhile
      rw [← hA] at hc
      simpa using List.all_eq_true.1 hall c hc
    have hurl' : url.toList = "udp://".toList ++ H ++ ':' :: P ++ r := by
      rw [hurl, hrest, hA]
      simp
    have hH : ∀ c ∈ H, c ≠ '/' ∧ c ≠ '?' := fun c hc => hsep c (by simp [hc])
    have hP' : ∀ c ∈ P, c ≠ '/' ∧ c ≠ '?' ∧ c ≠ ':' := by
      intro c hc
      refine ⟨(hsep c (by simp [hc])).1, (hsep c (by simp [hc])).2, ?_⟩
      rintro rfl
      exact hP hc
    obtain ⟨hnum, hun, hne⟩ := (parseUdpUrl_split hurl' hH hP' hr host port).1 h
    obtain ⟨ds, hds, hne', hdig, hval, hle⟩ := (Text.parseUnsigned?_ten_eq_some_iff _ _ _).1 hnum
    rw [String.toList_ofList] at hds
    exact ⟨H, P, r, hurl', hH, hr, ⟨ds, hds, hne', hdig, hval, hle⟩, hun, hne⟩
  · rintro ⟨H, P, r, hurl, hH, hr, hnum, hun, hne⟩
    refine (parseUdpUrl_split hurl hH hnum.not_separator hr host port).2 ⟨?_, hun, hne⟩
    obtain ⟨ds, hds, hne', hdig, hval, hle⟩ := hnum
    exact (Text.parseUnsigned?_ten_eq_some_iff _ _ _).2
      ⟨ds, by rwa [String.toList_ofList], hne', hdig, hval, hle⟩

/-- The decimal text of a 16-bit number is a port numeral of it. -/
theorem portNumeral_toString (p : UInt16) : PortNumeral (toString p).toList p.toNat := by
  have hlt : p.toNat < 65536 := UInt16.toNat_lt p
  refine ⟨Nat.toDigits 10 p.toNat, .inl Nat.toList_repr, Nat.toDigits_ne_nil,
    fun c hc => Nat.isDigit_of_mem_toDigits (by decide) (by decide) hc,
    Nat.ofDigitChars_ten_toDigits, by omega⟩

/-- A UDP tracker URL names its host and port. For every non-empty host without `/` or `?` that
is not itself in brackets, every 16-bit port and every rest that is empty or starts a path or a
query, `udp://`, the host (bracketed or not), `:`, the port in decimal and the rest read back as
that host and port. Conversely a URL is read as a host and a port exactly when it is
`udp://`, an authority and such a rest, where the authority ends in `:` and a numeral of the
port, after a host text that is the host, bracketed or not; so the port is the number after the
last `:` of the authority, and the host is not empty. -/
theorem udp_url_host_port :
    (∀ (host : String) (port : UInt16) (rest : String) (bracketed : Bool), host ≠ "" →
      (∀ c ∈ host.toList, c ≠ '/' ∧ c ≠ '?') → (∀ x, host.toList ≠ '[' :: x ++ [']']) →
      (rest = "" ∨ rest.toList.head? = some '/' ∨ rest.toList.head? = some '?') →
      parseUdpUrl ("udp://" ++ (if bracketed then "[" ++ host ++ "]" else host) ++ ":" ++
        toString port ++ rest) = .ok (host, port.toNat)) ∧
    ∀ url host port, parseUdpUrl url = .ok (host, port) ↔ UdpTrackerUrl url host port := by
  refine ⟨fun host port rest bracketed hne hsep hnot hrest => ?_, parseUdpUrl_eq_ok_iff⟩
  rw [parseUdpUrl_eq_ok_iff]
  have hr : rest.toList = [] ∨ rest.toList.head? = some '/' ∨ rest.toList.head? = some '?' := by
    rcases hrest with rfl | h | h
    · exact .inl rfl
    · exact .inr (.inl h)
    · exact .inr (.inr h)
  cases bracketed with
  | true =>
    refine ⟨'[' :: host.toList ++ [']'], (toString port).toList, rest.toList, by simp, ?_, hr,
      portNumeral_toString port, .inl rfl, hne⟩
    intro c hc
    simp only [List.cons_append, List.mem_cons, List.mem_append, List.not_mem_nil, or_false] at hc
    rcases hc with rfl | hc | rfl
    · decide
    · exact hsep c hc
    · decide
  | false =>
    exact ⟨host.toList, (toString port).toList, rest.toList, by simp, hsep, hr,
      portNumeral_toString port, .inr ⟨rfl, hnot⟩, hne⟩

/-- `udp://[::1]:80` names the host `::1` on port 80. -/
theorem bracketed_ipv6_udp_url :
    parseUdpUrl ("udp://" ++ (if true then "[" ++ "::1" ++ "]" else "::1") ++ ":" ++
      toString (80 : UInt16) ++ "") = .ok ("::1", (80 : UInt16).toNat) :=
  udp_url_host_port.1 "::1" 80 "" true (by decide) (by simp) (by simp) (.inl rfl)

end Tracker

end BitTorrent
