import AnchorScan.Proofs.Prospects

/-!
# AnchorScan.Proofs.DeclaredSize

What it changes to declare a size where no anchor needs one.  The declared size
leaves out the prospects whose windows end past it, and changes nothing else.

* `Catalog.prospects_declared`: which prospects are left;
* `Catalog.completionsBy_eq_map_metBy`: findings told with the windows that they
  were found in, which a finding alone does not show;
* `Session.openWindows_underWay`: the windows that a session still waits for;
* `Session.declared_restricts`: sessions with and without the size, side by side.
-/

namespace AnchorScan

/-! ## what a stream shows -/

namespace Prospect

/-- What is reported of a prospect that is found. -/
def finding (prospect : Prospect) : Finding := ⟨prospect.identifier, prospect.window.start⟩

/-- Whether the window of a prospect ends after `start` and by `stop`, and the
stream has the pattern there. -/
def isMet (prospect : Prospect) (stream : Bytes) (start stop : Nat) : Bool :=
  start < prospect.window.stop ∧ prospect.window.stop ≤ stop ∧
    prospect.window.octets stream = prospect.pattern

/-- Whether the window of a prospect ends by a position. -/
def endsBy (position : Nat) (prospect : Prospect) : Bool := prospect.window.stop ≤ position

theorem completion_eq_ite (prospect : Prospect) (stream : Bytes) (start stop : Nat) :
    prospect.completion stream start stop =
      if prospect.isMet stream start stop then some prospect.finding else none := by
  simp [completion, isMet, finding]

end Prospect

namespace Catalog

variable {catalog : Catalog} {total : Option Nat}

/-- The prospects that a stream in chunks shows, in the order in which the chunks
complete their windows, those of one chunk in order of registration. -/
def metBy (catalog : Catalog) (total : Option Nat) (chunks : List Bytes) : List Prospect :=
  (List.range chunks.length).flatMap fun k =>
    (catalog.prospects total).filter (·.isMet chunks.flatten (position (chunks.take k).flatten)
      (position (chunks.take (k + 1)).flatten))

/-- The findings of a stream in chunks are the prospects that it shows. -/
theorem completionsBy_eq_map_metBy (chunks : List Bytes) :
    catalog.completionsBy total chunks = (catalog.metBy total chunks).map Prospect.finding := by
  unfold completionsBy metBy
  rw [List.map_flatMap]
  refine List.flatMap_congr fun k _ => ?_
  rw [completions_eq_prospects, ← List.filterMap_eq_map, List.filterMap_filter]
  exact List.filterMap_congr fun prospect _ => prospect.completion_eq_ite _ _ _

/-! ## the prospects that a declared size leaves -/

section

variable (startAnchored : ∀ signature ∈ catalog.signatures, signature.anchor.anchorClass = .fromStart)
include startAnchored

/-- To declare a size leaves the prospects that end by it. -/
theorem prospects_declared (size : Nat) :
    catalog.prospects (some size) = (catalog.prospects none).filter (·.endsBy size) := by
  unfold prospects definitions
  rw [List.filter_filterMap, List.filterMap_map, List.filterMap_map]
  refine List.filterMap_congr fun signature h => ?_
  have hwindow := Signature.window?_declared (startAnchored signature (Array.mem_toList_iff.mp h)) size
  rw [Function.comp_apply, Function.comp_apply, Signature.prospect?_eq_map,
    Signature.prospect?_eq_map, hwindow]
  cases signature.window? none with
  | none => rfl
  | some window =>
      rw [Option.filter_some, Option.map_some, Option.filter_some]
      by_cases hstop : window.stop ≤ size <;> simp [Prospect.endsBy, hstop]

/-- So it is with the prospects that a stream shows. -/
theorem metBy_declared (size : Nat) (chunks : List Bytes) :
    catalog.metBy (some size) chunks = (catalog.metBy none chunks).filter (·.endsBy size) := by
  unfold metBy
  rw [List.filter_flatMap]
  refine List.flatMap_congr fun k _ => ?_
  rw [prospects_declared startAnchored, List.filter_filter, List.filter_filter]
  exact List.filter_congr fun prospect _ => Bool.and_comm _ _

/-- No size is needed. -/
theorem not_lacksTotal (laidOut : catalog.LaidOut) : ¬ catalog.LacksTotal none := by
  rintro ⟨-, hneeds⟩
  obtain ⟨signature, hmem, hend⟩ := laidOut.needsTotal_iff.mp hneeds
  rw [startAnchored signature hmem] at hend
  contradiction

end

/-- As long as the stream is no longer than the size, all prospects that it shows
end by it. -/
theorem filter_metBy {size : Nat} {chunks : List Bytes} (h : chunks.flatten.length ≤ size) :
    (catalog.metBy total chunks).filter (·.endsBy size) = catalog.metBy total chunks := by
  refine List.filter_eq_self.mpr fun prospect hmem => ?_
  obtain ⟨k, -, hmem⟩ := List.mem_flatMap.mp hmem
  have hmet := of_decide_eq_true (List.mem_filter.mp hmem).2
  have hlength := length_flatten_take_le chunks (k + 1)
  have hposition := position_le_length (chunks.take (k + 1)).flatten
  exact decide_eq_true (by omega)

/-! ## past the declared size -/

/-- A stream that is as long as the declared size has passed all windows. -/
theorem stop_le_position {signature : Signature} {window : Window} {size : Nat} {stream : Bytes}
    (hw : signature.window? (some size) = some window) (h : size ≤ stream.length) :
    window.stop ≤ position stream := by
  obtain ⟨-, hmax, hsize⟩ := Signature.window?_bounds hw
  have hstop := hsize size rfl
  unfold position
  omega

/-- What comes past the declared size completes nothing. -/
theorem completions_pastTotal {size : Nat} {stream taken : Bytes} (h : size ≤ taken.length)
    (stop : Nat) : catalog.completions (some size) stream (position taken) stop = [] := by
  refine List.filterMap_eq_nil_iff.mpr fun signature _ => ?_
  cases hw : signature.window? (some size) with
  | none => exact Signature.completion_of_none hw _ _
  | some window =>
      have hstop := stop_le_position hw h
      rw [Signature.completion_of_window hw, if_neg fun hmet => Nat.not_le_of_lt hmet.1 hstop]

theorem completionsBy_pastTotal {size : Nat} {chunks : List Bytes} (h : size ≤ chunks.flatten.length)
    (more : List Bytes) :
    catalog.completionsBy (some size) (chunks ++ more) = catalog.completionsBy (some size) chunks := by
  induction more using List.reverseRecOn with
  | nil => rw [List.append_nil]
  | append_singleton more chunk ih =>
      have hlonger : size ≤ (chunks ++ more).flatten.length := by
        rw [List.flatten_append, List.length_append]
        omega
      rw [← List.append_assoc, completionsBy_concat, ih, completions_pastTotal hlonger,
        List.append_nil]

/-- The part of a chunk that lies past the declared size completes nothing. -/
theorem completionsBy_overrun {size : Nat} {chunks : List Bytes} {chunk : Bytes}
    (h : size ≤ (chunks.flatten ++ chunk).length) (extra : Bytes) :
    catalog.completionsBy (some size) (chunks ++ [chunk ++ extra]) =
      catalog.completionsBy (some size) (chunks ++ [chunk]) := by
  rw [completionsBy_concat, completionsBy_concat, ← List.append_assoc]
  congr 1
  refine List.filterMap_congr fun signature _ => ?_
  rw [← Signature.completion_append (position_le_length (chunks.flatten ++ chunk)) extra]
  cases hw : signature.window? (some size) with
  | none => rw [Signature.completion_of_none hw, Signature.completion_of_none hw]
  | some window =>
      have hstop := stop_le_position hw h
      have hafter := Nat.le_trans hstop (position_le_append (chunks.flatten ++ chunk) extra)
      simp only [Signature.completion_of_window hw, hstop, hafter]

end Catalog

/-! ## windows that are still open -/

/-- The window of a signature that is pending. -/
def Status.window? : Status → Option Window
  | pending window _ => some window
  | _ => none

theorem Status.isSome_window? (status : Status) : status.window?.isSome = status.isPending := by
  cases status <;> rfl

/-- The windows that a session still waits for, in order of registration. -/
def Session.openWindows (session : Session) : List Window :=
  session.progress.live.filterMap fun index => session.progress.statuses[index]?.bind Status.window?

theorem Signature.window?_statusAfter (signature : Signature) (total : Option Nat) (stream : Bytes) :
    (signature.statusAfter total stream).window? =
      (signature.window? total).filter (position stream < ·.stop) := by
  cases hw : signature.window? total with
  | none => simp [statusAfter, hw, Status.window?]
  | some window =>
      rw [Option.filter_some]
      by_cases hp : position stream < window.stop
      · rw [statusAfter_of_pending hw hp, if_pos (decide_eq_true hp)]
        rfl
      · have hclosed : ¬ decide (position stream < window.stop) = true := by simpa using hp
        rw [statusAfter_of_complete hw (Nat.le_of_not_lt hp), if_neg hclosed]
        split <;> rfl

namespace Session

variable {catalog : Catalog} {total : Option Nat} {chunks : List Bytes}

/-- A session waits for the windows that its stream has not passed. -/
theorem openWindows_underWay (laidOut : catalog.LaidOut) :
    (underWay catalog total chunks).openWindows = catalog.signatures.toList.filterMap fun signature =>
      (signature.window? total).filter (position chunks.flatten < ·.stop) := by
  have hlive : (underWay catalog total chunks).progress.live =
      (catalog.waiting total chunks.flatten).map (·.index) := rfl
  rw [openWindows, hlive, List.filterMap_map, Catalog.waiting, List.filterMap_filter]
  refine List.filterMap_congr fun signature h => ?_
  have hget := laidOut.get?_index (Array.mem_toList_iff.mp h)
  have hstatus : (underWay catalog total chunks).progress.statuses[signature.index]? =
      some (signature.statusAfter total chunks.flatten) :=
    Progress.getElem?_statuses_after_eq_some_iff.mpr ⟨signature, hget, rfl⟩
  rw [← signature.window?_statusAfter, Function.comp_apply, hstatus, Option.bind_some]
  cases hpending : signature.pendingAfter total chunks.flatten with
  | true => rfl
  | false =>
      rw [Signature.pendingAfter, ← Status.isSome_window?, Option.isSome_eq_false_iff,
        Option.isNone_iff_eq_none] at hpending
      rw [hpending]
      rfl

/-- As many signatures are pending as windows are open. -/
theorem length_openWindows_underWay (laidOut : catalog.LaidOut) :
    (underWay catalog total chunks).openWindows.length = (underWay catalog total chunks).pending := by
  rw [openWindows_underWay laidOut, pending_underWay, List.length_filterMap_eq_countP,
    Catalog.waiting, ← List.countP_eq_length_filter]
  refine List.countP_congr fun signature _ => ?_
  rw [← signature.window?_statusAfter, Status.isSome_window?]
  rfl

/-- To declare a size closes the windows that end past it. -/
theorem openWindows_declared (laidOut : catalog.LaidOut)
    (startAnchored : ∀ signature ∈ catalog.signatures, signature.anchor.anchorClass = .fromStart)
    (size : Nat) :
    (underWay catalog (some size) chunks).openWindows =
      (underWay catalog none chunks).openWindows.filter (·.stop ≤ size) := by
  rw [openWindows_underWay laidOut, openWindows_underWay laidOut, List.filter_filterMap]
  refine List.filterMap_congr fun signature h => ?_
  rw [Signature.window?_declared (startAnchored signature (Array.mem_toList_iff.mp h)),
    Option.filter_filter, Option.filter_filter]
  simp only [Bool.and_comm]

/-! ## with and without the size -/

/-- A session over start anchors, started and fed, is under way. -/
theorem feedAll_start (laidOut : catalog.LaidOut) (hasTotal : ¬ catalog.LacksTotal total)
    (chunks : List Bytes) :
    (withTotal catalog total).start.reply = .ok () ∧
      ((withTotal catalog total).start.state.feedAll chunks).reply = .ok () ∧
      ((withTotal catalog total).start.state.feedAll chunks).state =
        underWay catalog total chunks := by
  rw [start_withTotal laidOut, if_neg hasTotal]
  exact ⟨rfl, feedAll_underWay laidOut chunks⟩

/-- **To declare a size rules out what ends past it, and nothing else.**  Over
anchors that count from the start, a session that was told the size finds what
one that was not told finds, without the prospects whose windows end past the
size, and waits for the windows that the other waits for, without those that do.
So both find the same in a stream that is no longer than declared, and what comes
past the declared size is never found. -/
theorem declared_restricts (built : catalog.Built)
    (startAnchored : ∀ signature ∈ catalog.signatures, signature.anchor.anchorClass = .fromStart)
    (size : Nat) (chunks : List Bytes) :
    let free := (withTotal catalog none).start
    let bound := (withTotal catalog (some size)).start
    let freeAfter := free.state.feedAll chunks
    let boundAfter := bound.state.feedAll chunks
    (free.reply = .ok () ∧ freeAfter.reply = .ok () ∧
        bound.reply = .ok () ∧ boundAfter.reply = .ok ()) ∧
      (freeAfter.state.findings = (catalog.metBy none chunks).map Prospect.finding ∧
        boundAfter.state.findings =
          ((catalog.metBy none chunks).filter (·.endsBy size)).map Prospect.finding) ∧
      (freeAfter.state.openWindows.length = freeAfter.state.pending ∧
        boundAfter.state.openWindows = freeAfter.state.openWindows.filter (·.stop ≤ size) ∧
        boundAfter.state.pending =
          freeAfter.state.pending - freeAfter.state.openWindows.countP (size < ·.stop)) ∧
      (chunks.flatten.length ≤ size → boundAfter.state.findings = freeAfter.state.findings) ∧
      ∀ (chunk extra : Bytes) (more : List Bytes), size ≤ (chunks.flatten ++ chunk).length →
        (bound.state.feedAll (chunks ++ [chunk ++ extra] ++ more)).state.findings =
          (bound.state.feedAll (chunks ++ [chunk])).state.findings := by
  intro free bound freeAfter boundAfter
  have laidOut := built.laidOut
  have hbound : ¬ catalog.LacksTotal (some size) := fun lacks => Bool.false_ne_true lacks.1
  obtain ⟨hfree, hfreeReply, hfreeState⟩ :=
    feedAll_start laidOut (Catalog.not_lacksTotal startAnchored laidOut) chunks
  obtain ⟨hstart, hboundReply, hboundState⟩ := feedAll_start laidOut hbound chunks
  have hshows : boundAfter.state.findings =
      ((catalog.metBy none chunks).filter (·.endsBy size)).map Prospect.finding := by
    rw [hboundState, findings_underWay, Catalog.completionsBy_eq_map_metBy,
      Catalog.metBy_declared startAnchored]
  have hfound : freeAfter.state.findings = (catalog.metBy none chunks).map Prospect.finding := by
    rw [hfreeState, findings_underWay, Catalog.completionsBy_eq_map_metBy]
  have hwindows : boundAfter.state.openWindows =
      freeAfter.state.openWindows.filter (·.stop ≤ size) := by
    rw [hboundState, hfreeState, openWindows_declared laidOut startAnchored]
  refine ⟨⟨hfree, hfreeReply, hstart, hboundReply⟩, ⟨hfound, hshows⟩, ⟨?_, hwindows, ?_⟩, ?_, ?_⟩
  · rw [hfreeState, length_openWindows_underWay laidOut]
  · have hopen : boundAfter.state.pending = boundAfter.state.openWindows.length := by
      rw [hboundState, length_openWindows_underWay laidOut]
    have hall : freeAfter.state.pending = freeAfter.state.openWindows.length := by
      rw [hfreeState, length_openWindows_underWay laidOut]
    have hsplit := @List.length_eq_countP_add_countP Window (size < ·.stop)
      freeAfter.state.openWindows
    simp only [decide_eq_true_eq, Nat.not_lt] at hsplit
    rw [hopen, hall, hwindows, ← List.countP_eq_length_filter]
    omega
  · intro h
    rw [hshows, hfound, Catalog.filter_metBy h]
  · intro chunk extra more h
    have hlonger : size ≤ (chunks ++ [chunk ++ extra]).flatten.length := by
      rw [List.flatten_concat, ← List.append_assoc, List.length_append]
      omega
    rw [(feedAll_start laidOut hbound _).2.2, (feedAll_start laidOut hbound _).2.2,
      findings_underWay, findings_underWay, Catalog.completionsBy_pastTotal hlonger,
      Catalog.completionsBy_overrun h]

/-- Two signatures that are found in one place, one of them past the size of four
octets; a third stays pending if no size is declared. -/
theorem declared_restricts_sample :
    let catalog := (Catalog.empty.load [⟨"mark", .fromStart 2, [3, 4, 5]⟩,
      ⟨"mark", .fromStart 2, [3, 4]⟩, ⟨"far", .fromStart 9, [7]⟩]).state
    let bound := (withTotal catalog (some 4)).start.state
    let freeAfter := ((withTotal catalog none).start.state.feedAll [[1], [2, 3, 4, 5]]).state
    let boundAfter := (bound.feedAll [[1], [2, 3, 4, 5]]).state
    catalog.Built ∧
      (∀ signature ∈ catalog.signatures, signature.anchor.anchorClass = .fromStart) ∧
      (freeAfter.findings = [⟨"mark", 2⟩, ⟨"mark", 2⟩] ∧ freeAfter.pending = 1) ∧
      (boundAfter.findings = [⟨"mark", 2⟩] ∧
        boundAfter.pending = freeAfter.pending - freeAfter.openWindows.countP (4 < ·.stop)) ∧
      4 ≤ (([[1]] : List Bytes).flatten ++ [2, 3, 4]).length ∧
      (bound.feedAll ([[1]] ++ [[2, 3, 4] ++ [5]] ++ [[6]])).state.findings =
        (bound.feedAll ([[1]] ++ [[2, 3, 4]])).state.findings := by
  intro catalog bound freeAfter boundAfter
  have built : catalog.Built := .load .empty _
  have startAnchored :
      ∀ signature ∈ catalog.signatures, signature.anchor.anchorClass = .fromStart := by decide
  have hlength : 4 ≤ (([[1]] : List Bytes).flatten ++ [2, 3, 4]).length := by decide
  obtain ⟨-, ⟨-, hfindings⟩, ⟨-, -, hpending⟩, -, -⟩ :=
    declared_restricts built startAnchored 4 [[1], [2, 3, 4, 5]]
  obtain ⟨-, -, -, -, hover⟩ := declared_restricts built startAnchored 4 [[1]]
  exact ⟨built, startAnchored, ⟨by decide +kernel, by decide +kernel⟩,
    ⟨hfindings.trans (by decide +kernel), hpending⟩, hlength, hover [2, 3, 4] [5] [[6]] hlength⟩

end Session

end AnchorScan
