import AnchorScan.Proofs.Chunking
import AnchorScan.Proofs.Reading
import AnchorScan.Settings

/-!
# AnchorScan.Proofs.Delivery

A stream read from a reader and the same stream in memory.  A reader may hand
out its data in pieces of any sizes and be interrupted any number of times.  It
answers with nothing only at the end of the data, as long as there is room in
the buffer, and every scanner's buffer has some.

* `Course.halts`: a scan ends with the data or when nobody waits any more;
* `Scanner.scanReads_agrees`: scans of readers and of files find what the scan of
  the data in memory finds.
-/

namespace AnchorScan

open Session

/-! ## readers -/

/-- A reader hands out data, piece by piece, to calls with room for so many
octets; nobody raises the flag meanwhile. -/
inductive Delivers (size : Nat) : List Read → Bytes → Prop
  | usedUp : Delivers size [] []
  | ended {rest : List Read} : Delivers size ({ delivery := .octets [] } :: rest) []
  | noRoom {rest : List Read} {data : Bytes} (full : size = 0) (delivers : Delivers size rest data) :
      Delivers size ({ delivery := .octets [] } :: rest) data
  | interrupted {rest : List Read} {data : Bytes} (delivers : Delivers size rest data) :
      Delivers size ({ delivery := .interrupted } :: rest) data
  | piece {chunk : Bytes} {rest : List Read} {data : Bytes} (nonempty : 0 < chunk.length)
      (fits : chunk.length ≤ size) (delivers : Delivers size rest data) :
      Delivers size ({ delivery := .octets chunk } :: rest) (chunk ++ data)

theorem Delivers.of_pieces {size : Nat} {pieces : List Bytes}
    (h : ∀ piece ∈ pieces, 0 < piece.length ∧ piece.length ≤ size) :
    Delivers size (pieces.map fun piece => { delivery := .octets piece }) pieces.flatten := by
  induction pieces with
  | nil => exact .usedUp
  | cons piece rest ih =>
      obtain ⟨⟨hpos, hle⟩, hrest⟩ := List.forall_mem_cons.mp h
      exact .piece hpos hle (ih hrest)

/-- Reads that fill the buffer hand out the data. -/
theorem Source.delivers_fullReads {size : Nat} (hs : 0 < size) (data : Bytes) :
    Delivers size (fullReads data size) data := by
  have hpieces := Delivers.of_pieces (length_of_mem_slices hs data)
  rwa [flatten_slices] at hpieces

/-! ## scanners -/

/-- The scanners over a catalog that come from settings and from asking for
buffer sizes, refused or not. -/
inductive Scanner.Configured (catalog : Catalog) : Scanner → Prop
  | standard : Configured catalog { catalog }
  | withSettings {settings : Settings} {scanner : Scanner}
      (accepted : settings.scanner catalog = .ok scanner) : Configured catalog scanner
  | resize {scanner : Scanner} (configured : Configured catalog scanner) (size : Nat) :
      Configured catalog (scanner.resize size).state

/-- A configured scanner scans for the catalog, and nobody called it off. -/
theorem Scanner.Configured.eq {catalog : Catalog} {scanner : Scanner}
    (configured : scanner.Configured catalog) : scanner = { catalog, buffer := scanner.buffer } := by
  induction configured with
  | standard => rfl
  | @withSettings settings scanner accepted =>
      unfold Settings.scanner at accepted
      cases hcheck : settings.check with
      | error failure =>
          rw [hcheck] at accepted
          cases accepted
      | ok buffer =>
          rw [hcheck] at accepted
          cases accepted
          rfl
  | resize _ size ih => rw [Scanner.state_resize, ih]

/-! ## the end of a scan -/

section

variable {catalog : Catalog} {total : Option Nat}

/-- **A scan ends with the data or when nobody waits any more**: what is left of
the data then is empty or does not matter. -/
theorem Course.halts {chunks : List Bytes} {aborted : Bool} {used unread : List Read}
    {reply : Except Failure Session} (course : Course catalog total chunks aborted used unread reply)
    (down : aborted = false) {size : Nat} (hs : 0 < size) {data : Bytes}
    (delivers : Delivers size (used ++ unread) data) :
    ∃ more left, data = more.flatten ++ left ∧ reply = .ok (halted catalog total (chunks ++ more)) ∧
      (left = [] ∨ catalog.waiting total (chunks ++ more).flatten = []) := by
  induction course generalizing data with
  | calledOff => contradiction
  | resolved settled =>
      exact ⟨[], data, rfl, by rw [List.append_nil], .inr (by rwa [List.append_nil])⟩
  | ranOut =>
      cases delivers
      exact ⟨[], [], rfl, by rw [List.append_nil], .inl rfl⟩
  | ended =>
      cases delivers with
      | ended => exact ⟨[], [], rfl, by rw [List.append_nil], .inl rfl⟩
      | noRoom full => omega
      | piece nonempty => contradiction
  | failed => cases delivers
  | interrupted _ _ ih =>
      cases delivers with
      | interrupted delivers => exact ih rfl delivers
  | fed _ nonempty _ ih =>
      cases delivers with
      | ended => contradiction
      | noRoom => contradiction
      | piece _ _ delivers =>
          obtain ⟨more, left, hdata, hreply, hleft⟩ := ih rfl delivers
          rw [List.append_assoc, List.singleton_append] at hreply hleft
          exact ⟨_ :: more, left, by rw [hdata, List.flatten_cons, List.append_assoc], hreply, hleft⟩

/-- Once nobody waits any more, the rest of a stream brings no findings. -/
theorem Catalog.findingsIn_append_perm {stream : Bytes} (settled : catalog.waiting total stream = [])
    (rest : Bytes) :
    (catalog.findingsIn total stream).Perm (catalog.findingsIn total (stream ++ rest)) := by
  have hrest : catalog.completions total (stream ++ rest) (position stream)
      (position (stream ++ rest)) = [] := by
    rw [← filterMap_waiting, settled, List.filterMap_nil]
  have hsplit := catalog.completions_append_perm total (stream ++ rest) (Nat.zero_le _)
    (position_le_append stream rest)
  rw [hrest, List.append_nil, catalog.completions_append total (position_le_length stream)] at hsplit
  exact hsplit

/-- A stream of the declared size shows start anchors as if no size was declared. -/
theorem Catalog.findingsIn_declared
    (hstart : ∀ signature ∈ catalog.signatures, signature.anchor.anchorClass = .fromStart)
    (stream : Bytes) :
    catalog.findingsIn (some stream.length) stream = catalog.findingsIn none stream := by
  unfold findingsIn completions
  refine List.filterMap_congr fun signature h => ?_
  exact Signature.completion_declared (hstart signature (Array.mem_toList_iff.mp h))
    (position_le_length stream) stream 0

end

/-! ## agreement -/

/-- A run came to the end of a session that found, in some order, what another
session found in the whole data. -/
def Run.AgreesWith (run : Run) (data : Bytes) (whole : Session) : Prop :=
  ∃ session, run.reply = .ok session ∧ session.phase = .stopped ∧ session.cursor ≤ data.length ∧
    session.findings.Perm whole.findings

namespace Scanner

variable {scanner : Scanner} {data : Bytes}

/-- The scan in memory takes in the data as one chunk. -/
theorem scanOctets_eq (laidOut : scanner.catalog.LaidOut) (data : Bytes) :
    (scanner.scanOctets data).reply = .ok () ∧
      (scanner.scanOctets data).state = halted scanner.catalog (some data.length) [data] := by
  have hstart := start_withTotal laidOut (some data.length)
  rw [if_neg (by simp [Catalog.LacksTotal])] at hstart
  have hfed : ((underWay scanner.catalog (some data.length) []).feed data).reply = .ok () :=
    reply_feed_underWay data
  unfold scanOctets newSession
  rw [hstart]
  constructor
  · rw [Step.reply_andThen rfl, Step.state_ok, Step.reply_andThen hfed, state_feed_underWay laidOut]
    exact reply_stop_underWay
  · rw [Step.state_andThen rfl, Step.state_ok, Step.state_andThen hfed, state_feed_underWay laidOut]
    exact state_stop_underWay

/-- A scan of a reader that hands out the data agrees with the scan in memory,
if the declared size makes no difference to what the data show. -/
theorem scanReads_agreesWith (laidOut : scanner.catalog.LaidOut) (down : scanner.aborted = false)
    {total : Option Nat} (hasTotal : ¬ scanner.catalog.LacksTotal total)
    (same : scanner.catalog.findingsIn total data =
      scanner.catalog.findingsIn (some data.length) data)
    {reads : List Read} (delivers : Delivers scanner.buffer.octets reads data) :
    (scanner.scanReads total reads).AgreesWith data (scanner.scanOctets data).state := by
  have hstart : (scanner.newSession total).start.reply = .ok () := by
    rw [newSession, start_withTotal laidOut, if_neg hasTotal]
    rfl
  obtain ⟨used, hreads, -, course⟩ := scanReads_course laidOut hstart reads
  rw [hreads] at delivers
  obtain ⟨more, left, hdata, hreply, hleft⟩ := course.halts down scanner.buffer.octets_pos delivers
  rw [List.nil_append] at hreply hleft
  refine ⟨_, hreply, rfl, ?_, ?_⟩
  · rw [cursor_halted, hdata, List.length_append]
    exact Nat.le_add_right_of_le (position_le_length _)
  · rw [(scanOctets_eq laidOut data).2, findings_halted, findings_halted]
    have hwhole := scanner.catalog.completionsBy_perm (some data.length) [data]
    rw [List.flatten_singleton, ← same] at hwhole
    refine (scanner.catalog.completionsBy_perm total more).trans (.trans ?_ hwhole.symm)
    rw [hdata]
    rcases hleft with rfl | hsettled
    · rw [List.append_nil]
    · exact Catalog.findingsIn_append_perm hsettled left

/-- **Scans of readers and of files agree with the scan in memory.**  Whatever
sizes a scanner was asked to use, its buffer has room; the scan in memory never
fails, and a scan of a reader or a file that hands out the same data finds the
same, in some order, if it is told the size of the data, or if it is told none
and no signature is anchored to the end. -/
theorem scanReads_agrees {catalog : Catalog} (built : catalog.Built)
    (configured : scanner.Configured catalog) (data : Bytes) :
    (0 < scanner.buffer.octets ∧ scanner.buffer.octets ≤ maxBufferSize) ∧
      (scanner.scanOctets data).reply = .ok () ∧
      ∀ total, total = some data.length ∨
          total = none ∧ (∀ signature ∈ catalog.signatures,
            signature.anchor.anchorClass = .fromStart) →
        (∀ reads, Delivers scanner.buffer.octets reads data →
          (scanner.scanReads total reads).AgreesWith data (scanner.scanOctets data).state) ∧
        ∀ path (source : Source), source.extent.size? = total →
          Delivers scanner.buffer.octets (source.reads scanner.buffer.octets) data →
          (scanner.scanSource path (.ok source)).AgreesWith data (scanner.scanOctets data).state := by
  have hscanner := configured.eq
  have hcatalog : scanner.catalog = catalog := by rw [hscanner]
  have down : scanner.aborted = false := by rw [hscanner]
  subst hcatalog
  have laidOut := built.laidOut
  refine ⟨⟨scanner.buffer.octets_pos, scanner.buffer.octets_le⟩, (scanOctets_eq laidOut data).1, ?_⟩
  intro total htotal
  have hasTotal : ¬ scanner.catalog.LacksTotal total := by
    rcases htotal with rfl | ⟨rfl, hstart⟩
    · simp [Catalog.LacksTotal]
    · rintro ⟨-, hneeds⟩
      obtain ⟨signature, hmem, hend⟩ := laidOut.needsTotal_iff.mp hneeds
      rw [hstart signature hmem] at hend
      cases hend
  have same : scanner.catalog.findingsIn total data =
      scanner.catalog.findingsIn (some data.length) data := by
    rcases htotal with rfl | ⟨rfl, hstart⟩
    · rfl
    · exact (Catalog.findingsIn_declared hstart data).symm
  constructor
  · intro reads delivers
    exact scanReads_agreesWith laidOut down hasTotal same delivers
  · intro path source hsize delivers
    subst hsize
    exact scanReads_agreesWith laidOut down hasTotal same delivers

theorem scanReads_agrees_sample :
    let scanner := ((({ catalog := Catalog.sample } : Scanner).resize 2).state.resize 0).state
    let reads : List Read := [⟨.octets [0, 1], false⟩, ⟨.interrupted, false⟩, ⟨.octets [2], false⟩,
      ⟨.octets [3, 4], false⟩]
    let data : Bytes := [0, 1, 2, 3, 4]
    scanner.Configured Catalog.sample ∧ Delivers scanner.buffer.octets reads data ∧
      (scanner.scanReads (some 5) reads).AgreesWith data (scanner.scanOctets data).state ∧
      (scanner.scanSource "input" (.ok (.regular data))).AgreesWith data (scanner.scanOctets data).state ∧
      (scanner.scanOctets data).state.findings = [⟨"tail", 3⟩, ⟨"head", 1⟩] := by
  intro scanner reads data
  have configured : scanner.Configured Catalog.sample := .resize (.resize .standard 2) 0
  have delivers : Delivers scanner.buffer.octets reads data :=
    .piece (by decide) (by decide) (.interrupted (.piece (by decide) (by decide)
      (.piece (by decide) (by decide) .usedUp)))
  obtain ⟨hbuffer, -, hagrees⟩ := scanReads_agrees Catalog.built_sample configured data
  obtain ⟨hreads, hsource⟩ := hagrees (some 5) (.inl rfl)
  exact ⟨configured, delivers, hreads reads delivers,
    hsource "input" (.regular data) rfl (Source.delivers_fullReads hbuffer.1 data), by decide +kernel⟩

end Scanner

end AnchorScan
