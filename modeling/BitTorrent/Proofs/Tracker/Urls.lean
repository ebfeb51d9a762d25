import BitTorrent.Tracker.Request
import BitTorrent.Proofs.Url.PercentCodec
import Std.Data.String.ToNat
import Mathlib.Data.List.Forall2

/-!
# Tracker URLs read back

An announce URL is the tracker's URL, a separator and the request's parameters, each written as
`name=value` and joined by `&`; a scrape URL is the announce URL with the `announce` that begins
its last segment turned into `scrape`, followed by one `info_hash` parameter per torrent. Both
can be read back. Numbers are written in decimal, flags as `1` or `0`, the event by its name and
every other value percent-encoded, and none of these texts holds a `&`. Splitting the query at
`&` therefore gives the parameters one by one, in the order they were written, and each value
reads back as the request's own (`QueryOf`). This holds for every percent-encoding library that
behaves as documented (`Percent.Library`).

## Main definitions

* `Value`, `Value.ReadsAs`: a parameter's value and the texts that read back as it.
* `QueryOf`: a query carrying given parameters in order.
* `Request.queryFields`: the parameters of an announce, in the order they are sent.

## Main statements

* `announceUrl_reads_back`: the announce URL carries exactly the request's parameters.
* `scrapeUrl_reads_back`: when a scrape URL exists, and what it carries.
* `tracker_urls_read_back`: both together.
-/

namespace BitTorrent.Tracker

open Bytes

/-! ## Section 1: Parameter values -/

section Library

variable (L : Percent.Library)

/-- A query parameter's value as the request holds it. -/
inductive Value where
  | num (n : Nat)
  | flag (b : Bool)
  | event (e : Event)
  | bytes (b : Bytes)
deriving DecidableEq, Repr

namespace Value

/-- The text a value is written as. -/
def text : Value → String
  | num n => toString n
  | flag b => Tracker.flag b
  | event e => e.name
  | bytes b => Percent.encode L b

/-- A query text reads back as the value: a decimal numeral of the number, `1` or `0` for a
flag, the event's name, or a strictly percent-encoded text of the bytes. -/
def ReadsAs : Value → String → Prop
  | num n, s => (∀ c ∈ s.toList, c.isDigit) ∧ s.toNat? = some n
  | flag b, s => s = if b then "1" else "0"
  | event e, s => s = e.name
  | bytes b, s => Percent.decode? L s = some b

theorem readsAs_text (v : Value) : v.ReadsAs L (v.text L) := by
  cases v with
  | num n =>
    refine ⟨fun c hc => ?_, Nat.toNat?_repr n⟩
    -- the characters of a numeral are the digits `Nat.toDigits` gives
    change c ∈ (Nat.repr n).toList at hc
    rw [Nat.toList_repr] at hc
    exact Nat.isDigit_of_mem_toDigits (by decide) (by decide) hc
  | flag b => rfl
  | event e => rfl
  | bytes b => exact Percent.decode?_encode L b

theorem amp_not_mem_text (v : Value) : '&' ∉ (v.text L).toList := by
  cases v with
  | num n =>
    intro h
    have hdigit := (readsAs_text L (.num n)).1 _ h
    exact absurd hdigit (by decide)
  | flag b =>
    change '&' ∉ (Tracker.flag b).toList
    cases b <;> decide
  | event e =>
    change '&' ∉ e.name.toList
    cases e <;> decide
  | bytes b => exact Percent.delimiter_not_mem_encode L b (by simp)

end Value

/-! ## Section 2: Queries split at `&` -/

/-- The query `q` carries the parameters `ps` in order after the separator `sep`: split at `&`,
the text after `sep` has one part per parameter, its name, `=` and a text that `R` reads back
as its value. Without parameters `q` is empty. -/
def QueryOf {α : Type} (R : α → String → Prop) (sep q : String) : List (String × α) → Prop
  | [] => q = ""
  | p :: ps => ∃ rest, q = sep ++ rest ∧
      List.Forall₂ (fun part (p : String × α) => ∃ v, part = p.1 ++ "=" ++ v ∧ R p.2 v)
        ((rest.split '&').toList.map (·.copy)) (p :: ps)

theorem querySeparator_eq (s : String) :
    querySeparator s = if '?' ∈ s.toList then "&" else "?" := by
  simp [querySeparator, String.contains_char_eq]

section Params

variable {α : Type} (text : α → String)

/-- One parameter written as `name=value`. -/
def paramText (p : String × α) : String := p.1 ++ "=" ++ text p.2

theorem join_eq_intercalate (t : String) (ts : List String) :
    t ++ String.join (ts.map ("&" ++ ·)) = "&".intercalate (t :: ts) := by
  induction ts generalizing t with
  | nil => simp
  | cons u ts ih =>
    rw [List.map_cons, String.join_cons, String.intercalate_cons_cons, ← ih u]
    simp [String.append_assoc]

/-- Parameters written one after another, the first after `sep` and each further one after
`&`, carry exactly those parameters, provided every value reads back and no parameter's text
holds a `&`. -/
theorem queryOf_join {R : α → String → Prop} (sep : String) (p : String × α)
    (ps : List (String × α)) (hR : ∀ p' ∈ p :: ps, R p'.2 (text p'.2))
    (hamp : ∀ p' ∈ p :: ps, '&' ∉ (paramText text p').toList) :
    QueryOf R sep (sep ++ (paramText text p ++
      String.join (ps.map fun p' => "&" ++ paramText text p'))) (p :: ps) := by
  refine ⟨_, rfl, ?_⟩
  -- the parameters are joined by `&`, and a join by `&` of texts without `&` splits back
  have hjoin : paramText text p ++ String.join (ps.map fun p' => "&" ++ paramText text p') =
      "&".intercalate ((p :: ps).map (paramText text)) := by
    rw [List.map_cons, ← join_eq_intercalate, List.map_map]
    rfl
  have hamp' : ∀ s ∈ (p :: ps).map (paramText text), '&' ∉ s.toList :=
    List.forall_mem_map.mpr hamp
  have hsplit := String.toList_split_intercalate hamp'
  rw [if_neg (by simp), show String.singleton '&' = "&" from rfl] at hsplit
  rw [hjoin, hsplit, List.forall₂_map_left_iff, List.forall₂_same]
  exact fun p' hp' => ⟨text p'.2, rfl, hR p' hp'⟩

end Params

/-- A parameter whose name has no `&` has none in its text. -/
theorem amp_not_mem_paramText {name : String} (hname : '&' ∉ name.toList) (v : Value) :
    '&' ∉ (paramText (Value.text L) (name, v)).toList := by
  simp only [paramText, String.toList_append, List.mem_append, not_or]
  exact ⟨⟨hname, by decide⟩, v.amp_not_mem_text L⟩

/-! ## Section 3: Announce URLs -/

namespace Request

/-- The parameters of an announce in the order they are sent: the six required ones, then each
optional one that is set. -/
def queryFields (r : Request) : List (String × Value) :=
  ("info_hash", .bytes r.infoHash) :: ("peer_id", .bytes r.peerId) :: ("port", .num r.port) ::
  ("uploaded", .num r.uploaded) :: ("downloaded", .num r.downloaded) :: ("left", .num r.left) ::
  ((r.compact.toList.map fun b => ("compact", .flag b)) ++
  (r.noPeerId.toList.map fun b => ("no_peer_id", .flag b)) ++
  (r.event.toList.map fun e => ("event", .event e)) ++
  (r.ip.toList.map fun s => ("ip", .bytes (ofString s))) ++
  (r.numwant.toList.map fun n => ("numwant", .num n)) ++
  (r.key.toList.map fun s => ("key", .bytes (ofString s))) ++
  (r.trackerid.toList.map fun s => ("trackerid", .bytes (ofString s))))

end Request

/-- An optional parameter written as `&name=value` when set: the join of its zero or one
parameter texts, each after `&`. -/
theorem param_eq {β : Type} (name : String) (render : β → String) (wrap : β → Value)
    (hwrap : ∀ v, (wrap v).text L = render v) (o : Option β) :
    param name render o =
      String.join ((o.toList.map fun v => (name, wrap v)).map fun p => "&" ++ paramText (Value.text L) p) := by
  cases o with
  | none => rfl
  | some v => simp [param, paramText, hwrap, String.append_assoc]

/-- The announce URL as the tracker's URL, the separator and the request's parameters, the
first written as is and each further one after `&`. -/
theorem announceUrl_eq (r : Request) :
    r.announceUrl L = r.announce ++ querySeparator r.announce ++
      (paramText (Value.text L) ("info_hash", .bytes r.infoHash) ++
        String.join (r.queryFields.tail.map fun p => "&" ++ paramText (Value.text L) p)) := by
  unfold Request.announceUrl
  -- each optional parameter is the `&name=value` of its zero or one value
  rw [param_eq L "compact" flag Value.flag (fun _ => rfl),
    param_eq L "no_peer_id" flag Value.flag (fun _ => rfl),
    param_eq L "event" Event.name Value.event (fun _ => rfl),
    param_eq L "ip" (fun s => Percent.encode L (ofString s)) (fun s => Value.bytes (ofString s))
      (fun _ => rfl),
    param_eq L "numwant" toString Value.num (fun _ => rfl),
    param_eq L "key" (fun s => Percent.encode L (ofString s)) (fun s => Value.bytes (ofString s))
      (fun _ => rfl),
    param_eq L "trackerid" (fun s => Percent.encode L (ofString s))
      (fun s => Value.bytes (ofString s)) (fun _ => rfl)]
  simp only [Request.queryFields, List.tail_cons, List.map_cons, List.map_append, String.join_cons,
    String.join_append]
  -- the literals `&peer_id=` and so on split into `&`, the name and `=` only as characters
  simp only [← String.toList_inj, String.toList_append, paramText, Value.text, List.append_assoc,
    String.reduceToList, List.cons_append, List.nil_append]

/-- No parameter of an announce has a `&` in its name or its text. -/
theorem amp_not_mem_queryField {r : Request} {p : String × Value} (hp : p ∈ r.queryFields) :
    '&' ∉ (paramText (Value.text L) p).toList := by
  simp only [Request.queryFields, List.mem_cons, List.mem_append, List.mem_map,
    Option.mem_toList] at hp
  rcases hp with rfl | rfl | rfl | rfl | rfl | rfl | ((((((⟨_, -, rfl⟩ | ⟨_, -, rfl⟩) |
    ⟨_, -, rfl⟩) | ⟨_, -, rfl⟩) | ⟨_, -, rfl⟩) | ⟨_, -, rfl⟩) | ⟨_, -, rfl⟩)
  all_goals exact amp_not_mem_paramText L (by simp) _

/-- An announce URL is the tracker's URL, `?` (or `&` if that URL already has a query) and the
request's parameters: split at `&`, the query gives `info_hash`, `peer_id`, `port`, `uploaded`,
`downloaded` and `left`, then each optional parameter that is set, in their fixed order, each as
`name=value` with a value that reads back as the request's own. -/
theorem announceUrl_reads_back (r : Request) :
    ∃ q, r.announceUrl L = r.announce ++ q ∧
      QueryOf (Value.ReadsAs L) (if '?' ∈ r.announce.toList then "&" else "?") q r.queryFields := by
  refine ⟨_, by rw [announceUrl_eq, String.append_assoc], ?_⟩
  rw [← querySeparator_eq]
  exact queryOf_join (Value.text L) _ _ _ (fun p _ => p.2.readsAs_text L)
    (fun _ hp => amp_not_mem_queryField L hp)

/-! ## Section 4: Scrape URLs -/

/-- A text holding `x` splits at its last `x`. -/
theorem exists_last_occurrence {cs : List Char} {x : Char} (h : x ∈ cs) :
    ∃ pre post, cs = pre ++ x :: post ∧ x ∉ post := by
  induction cs with
  | nil => exact absurd h List.not_mem_nil
  | cons c cs ih =>
    by_cases hin : x ∈ cs
    · obtain ⟨pre, post, rfl, hpost⟩ := ih hin
      exact ⟨c :: pre, post, rfl, hpost⟩
    · -- no `x` after `c`, so `c` is the last one
      have hc : x = c := by simpa [hin] using h
      exact ⟨[], cs, by rw [hc]; rfl, hin⟩

/-- Reading backwards up to the first `x` gives what follows the last `x`. -/
theorem takeWhile_reverse_last (x : Char) (pre post : List Char) (h : x ∉ post) :
    (pre ++ x :: post).reverse.takeWhile (· ≠ x) = post.reverse := by
  have hpost : ∀ c ∈ post.reverse, decide (c ≠ x) = true := by
    intro c hc
    have hne : c ≠ x := fun he => h (he ▸ List.mem_reverse.mp hc)
    simpa using hne
  rw [List.reverse_append, List.reverse_cons, List.append_assoc,
    List.takeWhile_append_of_pos hpost]
  simp

/-- `scrapeUrl?` on an announce URL whose last `/` is followed by `post`: a scrape URL exactly
when `post` begins with `announce`. -/
theorem scrapeUrl?_of_last_slash {a : String} {pre post : List Char}
    (ha : a.toList = pre ++ '/' :: post) (h : '/' ∉ post) (hs : List Bytes) :
    scrapeUrl? L a hs =
      if "announce".toList.isPrefixOf post then
        some (String.ofList (pre ++ '/' :: ("scrape".toList ++ post.drop 8)) ++
          String.join (hs.zipIdx.map fun (x, k) =>
            (if k = 0 then querySeparator (String.ofList (pre ++ '/' :: ("scrape".toList ++
              post.drop 8))) else "&") ++ "info_hash=" ++ Percent.encode L x))
      else none := by
  have hcs : pre ++ '/' :: post = (pre ++ ['/']) ++ post := by simp
  have hlen : (pre ++ '/' :: post).length - post.reverse.length = (pre ++ ['/']).length := by
    simp only [List.length_append, List.length_cons, List.length_reverse, List.length_nil]
    omega
  unfold scrapeUrl?
  simp only [ha, takeWhile_reverse_last '/' pre post h, hlen, List.contains_iff_mem,
    List.mem_append, List.mem_cons, true_or, or_true, reduceIte]
  rw [hcs, List.take_left' rfl, List.drop_left' rfl]
  simp only [List.append_assoc, List.cons_append, List.nil_append]

/-- Without a `/` there is no scrape URL. -/
theorem scrapeUrl?_of_no_slash {a : String} (h : '/' ∉ a.toList) (hs : List Bytes) :
    scrapeUrl? L a hs = none := by
  unfold scrapeUrl?
  simp only [List.contains_iff_mem, h, reduceIte]

/-- `announce` holds no `/`, so the text after a last `/` that begins with `announce` has no `/`
beyond it either. -/
theorem slash_not_mem_announce {post : List Char} (h : '/' ∉ post) :
    '/' ∉ "announce".toList ++ post := by
  simp [h]

/-- The parameters a scrape URL appends: `sep` before the first, `&` before each further one. -/
theorem join_zipIdx (sep : String) (f : Bytes → String) (h : Bytes) (hs : List Bytes) :
    String.join ((h :: hs).zipIdx.map fun p => (if p.2 = 0 then sep else "&") ++ f p.1) =
      sep ++ (f h ++ String.join (hs.map fun x => "&" ++ f x)) := by
  have hrest : (hs.zipIdx 1).map (fun p => (if p.2 = 0 then sep else "&") ++ f p.1) =
      hs.map fun x => "&" ++ f x := by
    calc (hs.zipIdx 1).map (fun p => (if p.2 = 0 then sep else "&") ++ f p.1)
        _ = (hs.zipIdx 1).map ((fun x => "&" ++ f x) ∘ Prod.fst) := by
          apply List.map_congr_left
          intro ⟨x, k⟩ hk
          -- every index after the first is at least 1
          have hpos : 1 ≤ k := (List.mem_zipIdx hk).1
          simp [show k ≠ 0 by omega]
        _ = hs.map fun x => "&" ++ f x := by
          rw [← List.map_map, List.zipIdx_map_fst]
  simp only [List.zipIdx_cons, List.map_cons, String.join_cons, Nat.zero_add, hrest, reduceIte,
    String.append_assoc]

/-- The hashes of a scrape, written after `sep` and joined by `&`, carry one `info_hash`
parameter per hash, each decoding to its hash. -/
theorem hashQuery_reads_back (sep : String) (hs : List Bytes) :
    QueryOf (Value.ReadsAs L) sep
      (String.join (hs.zipIdx.map fun (x, k) =>
        (if k = 0 then sep else "&") ++ "info_hash=" ++ Percent.encode L x))
      (hs.map fun h => ("info_hash", .bytes h)) := by
  cases hs with
  | nil => rfl
  | cons h hs =>
    have hparam : ∀ x, "info_hash=" ++ Percent.encode L x =
        paramText (Value.text L) ("info_hash", .bytes x) := fun _ => rfl
    have hjoin := join_zipIdx sep (fun x => paramText (Value.text L) ("info_hash", .bytes x)) h hs
    have hmap : (hs.map fun x => "&" ++ paramText (Value.text L) ("info_hash", .bytes x)) =
        (hs.map fun h => ("info_hash", Value.bytes h)).map fun p => "&" ++ paramText (Value.text L) p := by
      rw [List.map_map]
      rfl
    simp only [String.append_assoc, hparam]
    rw [hjoin, hmap]
    refine queryOf_join (Value.text L) sep _ _ (fun p _ => p.2.readsAs_text L) fun p hp => ?_
    have hp' : p ∈ (h :: hs).map fun h => ("info_hash", Value.bytes h) := hp
    obtain ⟨x, -, rfl⟩ := List.mem_map.mp hp'
    exact amp_not_mem_paramText L (by simp) _

/-- The scrape URL of an announce URL whose text after the last `/` is `announce` and then
`post`: `announce` turned into `scrape`, followed by the hashes. -/
theorem scrapeUrl?_of_announce {a : String} {pre post : List Char}
    (ha : a.toList = pre ++ '/' :: ("announce".toList ++ post)) (hpost : '/' ∉ post)
    (hs : List Bytes) :
    ∃ q, scrapeUrl? L a hs = some (String.ofList (pre ++ '/' :: ("scrape".toList ++ post)) ++ q) ∧
      QueryOf (Value.ReadsAs L) (if '?' ∈ pre ++ '/' :: ("scrape".toList ++ post) then "&" else "?") q
        (hs.map fun h => ("info_hash", .bytes h)) := by
  have hpre : "announce".toList.isPrefixOf ("announce".toList ++ post) = true := by
    simp only [List.isPrefixOf_iff_prefix, List.prefix_append]
  have hdrop : ("announce".toList ++ post).drop 8 = post := List.drop_left' (by simp)
  -- the separator is chosen on the new URL, whose characters are those of the list
  have hsep : querySeparator (String.ofList (pre ++ '/' :: ("scrape".toList ++ post))) =
      if '?' ∈ pre ++ '/' :: ("scrape".toList ++ post) then "&" else "?" := by
    rw [querySeparator_eq, String.toList_ofList]
  rw [scrapeUrl?_of_last_slash L ha (slash_not_mem_announce hpost), if_pos hpre, hdrop, ← hsep]
  exact ⟨_, rfl, hashQuery_reads_back L _ hs⟩

/-- Only an announce URL whose text after the last `/` begins with `announce` has a scrape
URL. -/
theorem exists_announce_of_scrapeUrl? {a : String} {hs : List Bytes}
    (hsome : (scrapeUrl? L a hs).isSome) :
    ∃ pre post, a.toList = pre ++ '/' :: ("announce".toList ++ post) ∧ '/' ∉ post := by
  by_cases hslash : '/' ∈ a.toList
  · obtain ⟨pre, post, ha, hpost⟩ := exists_last_occurrence hslash
    rw [scrapeUrl?_of_last_slash L ha hpost] at hsome
    split at hsome
    · next hpre =>
      obtain ⟨t, rfl⟩ := List.isPrefixOf_iff_prefix.mp hpre
      exact ⟨pre, t, ha, fun ht => hpost (List.mem_append_right _ ht)⟩
    · exact absurd hsome Bool.false_ne_true
  · rw [scrapeUrl?_of_no_slash L hslash] at hsome
    exact absurd hsome Bool.false_ne_true

/-- A scrape URL exists exactly for an announce URL whose text after the last `/` begins with
`announce`. It is that URL with this `announce` replaced by `scrape` and every other character
kept, followed by one `info_hash` parameter per hash, in order, each decoding to its hash: the
first after `?`, or after `&` if the new URL already has a query, and the others after `&`. -/
theorem scrapeUrl_reads_back (a : String) (hs : List Bytes) :
    ((scrapeUrl? L a hs).isSome ↔
      ∃ pre post, a.toList = pre ++ '/' :: ("announce".toList ++ post) ∧ '/' ∉ post) ∧
    ∀ pre post, a.toList = pre ++ '/' :: ("announce".toList ++ post) → '/' ∉ post →
      ∃ q, scrapeUrl? L a hs = some (String.ofList (pre ++ '/' :: ("scrape".toList ++ post)) ++ q) ∧
        QueryOf (Value.ReadsAs L)
          (if '?' ∈ pre ++ '/' :: ("scrape".toList ++ post) then "&" else "?") q
          (hs.map fun h => ("info_hash", .bytes h)) := by
  refine ⟨⟨exists_announce_of_scrapeUrl? L, fun ⟨pre, post, ha, hpost⟩ => ?_⟩,
    fun pre post ha hpost => scrapeUrl?_of_announce L ha hpost hs⟩
  obtain ⟨q, hq, -⟩ := scrapeUrl?_of_announce L ha hpost hs
  rw [hq]
  rfl

/-! ## Section 5: Tracker URLs -/

/-- Tracker URLs read back. An announce URL is the tracker's URL, a separator (`&` if that URL
already has a query, else `?`) and a query that, split at `&`, gives the request's parameters in
their fixed order, each as `name=value` with a value that reads back as the request's own. A
scrape URL exists exactly when the text after the last `/` of the announce URL begins with
`announce`; it is then that URL with this word turned into `scrape`, followed by one
`info_hash` parameter per hash, in order, each decoding to its hash. -/
theorem tracker_urls_read_back :
    (∀ r : Request, ∃ q, r.announceUrl L = r.announce ++ q ∧
      QueryOf (Value.ReadsAs L) (if '?' ∈ r.announce.toList then "&" else "?") q r.queryFields) ∧
    ∀ (a : String) (hs : List Bytes),
      ((scrapeUrl? L a hs).isSome ↔
        ∃ pre post, a.toList = pre ++ '/' :: ("announce".toList ++ post) ∧ '/' ∉ post) ∧
      ∀ pre post, a.toList = pre ++ '/' :: ("announce".toList ++ post) → '/' ∉ post →
        ∃ q, scrapeUrl? L a hs =
            some (String.ofList (pre ++ '/' :: ("scrape".toList ++ post)) ++ q) ∧
          QueryOf (Value.ReadsAs L)
            (if '?' ∈ pre ++ '/' :: ("scrape".toList ++ post) then "&" else "?") q
            (hs.map fun h => ("info_hash", .bytes h)) :=
  ⟨announceUrl_reads_back L, scrapeUrl_reads_back L⟩

end Library

/-- The scrape URL of `http://t/announce.php` for one hash keeps `.php` after `scrape` and
carries that hash. -/
theorem announce_php_scrape_url :
    ∃ q, scrapeUrl? .reference "http://t/announce.php" [List.replicate 20 0] =
        some (String.ofList ("http://t".toList ++ '/' :: ("scrape".toList ++ ".php".toList)) ++ q) ∧
      QueryOf (Value.ReadsAs .reference)
        (if '?' ∈ "http://t".toList ++ '/' :: ("scrape".toList ++ ".php".toList) then "&" else "?") q
        ([List.replicate 20 0].map fun h => ("info_hash", .bytes h)) :=
  ((tracker_urls_read_back .reference).2 "http://t/announce.php" [List.replicate 20 0]).2 _ _ (by simp) (by simp)

end BitTorrent.Tracker
