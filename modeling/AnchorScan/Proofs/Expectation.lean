import AnchorScan.Proofs.Windows
import AnchorScan.Session.Progress

/-!
# AnchorScan.Proofs.Expectation

What a scan is to know of a signature once a stream was taken in, told from the
stream as a whole: the pieces it came in do not matter.  A signature is pending
until the stream reaches the end of its window, and matched or rejected from
then on; its buffer holds the octets of the window that the stream has, and
zeros in place of those that are still to come.

* `Signature.statusAfter_append` and `Signature.bufferAfter_append`: a signature
  that is not pending is settled, whatever comes next;
* `Signature.completion`: the finding that falls between two positions;
* `Catalog.completions_append_perm`: what falls between two positions falls
  before or after any position between them.
-/

namespace AnchorScan

/-! ## positions -/

/-- The position that a stream leads to. -/
def position (stream : Bytes) : Nat := min stream.length maxPosition

@[simp] theorem position_nil : position [] = 0 := rfl

theorem advance_position (stream chunk : Bytes) :
    advance (position stream) chunk.length = position (stream ++ chunk) := by
  unfold advance position
  rw [List.length_append]
  omega

theorem position_le_length (stream : Bytes) : position stream ≤ stream.length :=
  Nat.min_le_left _ _

theorem position_le_append (stream chunk : Bytes) : position stream ≤ position (stream ++ chunk) := by
  unfold position
  rw [List.length_append]
  omega

namespace Signature

variable {signature : Signature} {total : Option Nat} {window : Window}

/-! ## status and buffer after a stream -/

/-- What is known of a signature after a stream. -/
def statusAfter (signature : Signature) (total : Option Nat) (stream : Bytes) : Status :=
  match signature.window? total with
  | none => .rejected
  | some window =>
    if position stream < window.stop then .pending window (position stream - window.start)
    else if window.octets stream = signature.pattern then .matched
    else .rejected

/-- Whether a signature is still looked for after a stream. -/
def pendingAfter (signature : Signature) (total : Option Nat) (stream : Bytes) : Bool :=
  (signature.statusAfter total stream).isPending

/-- A signature's buffer after a stream. -/
def bufferAfter (signature : Signature) (total : Option Nat) (stream : Bytes) : Bytes :=
  match signature.window? total with
  | none => List.replicate signature.length 0
  | some window => (window.octets stream).rightpad signature.length 0

theorem pendingAfter_iff {stream : Bytes} :
    signature.pendingAfter total stream = true ↔
      ∃ window, signature.window? total = some window ∧ position stream < window.stop := by
  unfold pendingAfter statusAfter
  cases h : signature.window? total with
  | none => simp [Status.isPending]
  | some window =>
      by_cases hp : position stream < window.stop
      · simp [hp, Status.isPending]
      · by_cases hm : window.octets stream = signature.pattern <;> simp [hp, hm, Status.isPending]

theorem statusAfter_of_pending {stream : Bytes} (h : signature.window? total = some window)
    (hp : position stream < window.stop) :
    signature.statusAfter total stream = .pending window (position stream - window.start) := by
  simp [statusAfter, h, hp]

theorem statusAfter_of_complete {stream : Bytes} (h : signature.window? total = some window)
    (hp : window.stop ≤ position stream) :
    signature.statusAfter total stream =
      if window.octets stream = signature.pattern then .matched else .rejected := by
  simp [statusAfter, h, Nat.not_lt.mpr hp]

/-- While a window is not complete, positions have not run out. -/
theorem position_eq_length {stream : Bytes} (hw : signature.window? total = some window)
    (hp : position stream < window.stop) : position stream = stream.length := by
  have hmax := (window?_bounds hw).2.1
  unfold position at hp ⊢
  omega

/-- A stream has reached the end of the window of a signature that is not pending. -/
theorem stop_le_of_settled {stream : Bytes} (h : signature.pendingAfter total stream = false)
    (hw : signature.window? total = some window) : window.stop ≤ position stream := by
  apply Nat.le_of_not_lt
  intro hlt
  rw [pendingAfter_iff.mpr ⟨window, hw, hlt⟩] at h
  contradiction

/-- A signature that is not pending is settled. -/
theorem statusAfter_append {stream : Bytes} (h : signature.pendingAfter total stream = false)
    (more : Bytes) :
    signature.statusAfter total (stream ++ more) = signature.statusAfter total stream := by
  cases hw : signature.window? total with
  | none => simp [statusAfter, hw]
  | some window =>
      have hstop := stop_le_of_settled h hw
      have hlen := Nat.le_trans hstop (position_le_length stream)
      rw [statusAfter_of_complete hw hstop, ← Window.octets_append hlen more]
      exact statusAfter_of_complete hw (Nat.le_trans hstop (position_le_append stream more))

/-- The buffer of a signature that is not pending stays as it is. -/
theorem bufferAfter_append {stream : Bytes} (h : signature.pendingAfter total stream = false)
    (more : Bytes) :
    signature.bufferAfter total (stream ++ more) = signature.bufferAfter total stream := by
  cases hw : signature.window? total with
  | none => simp [bufferAfter, hw]
  | some window =>
      have hstop := stop_le_of_settled h hw
      have hlen := Nat.le_trans hstop (position_le_length stream)
      simp only [bufferAfter, hw, Window.octets_append hlen]

/-- Once pending later, pending before. -/
theorem pendingAfter_of_append {stream more : Bytes}
    (h : signature.pendingAfter total (stream ++ more) = true) :
    signature.pendingAfter total stream = true := by
  obtain ⟨window, hw, hlt⟩ := pendingAfter_iff.mp h
  exact pendingAfter_iff.mpr ⟨window, hw, Nat.lt_of_le_of_lt (position_le_append stream more) hlt⟩

theorem length_bufferAfter (stream : Bytes) :
    (signature.bufferAfter total stream).length = signature.length := by
  unfold bufferAfter
  cases hw : signature.window? total with
  | none => simp
  | some window =>
      have hle : (window.octets stream).length ≤ signature.length := by
        rw [← window?_length hw]
        exact List.length_take_le _ _
      simp only [List.rightpad, List.length_append, List.length_replicate]
      omega

/-- The octet at a place of the buffer is that of the stream, or zero if the
stream does not reach there. -/
theorem getElem?_bufferAfter {stream : Bytes} (h : signature.window? total = some window) (i : Nat) :
    (signature.bufferAfter total stream)[i]? =
      if i < signature.length then some (stream[window.start + i]?.getD 0) else none := by
  have hlen : window.length = signature.length := window?_length h
  have hoctets : (window.octets stream).length = min signature.length (stream.length - window.start) := by
    rw [Window.octets, List.length_take, List.length_drop, hlen]
  simp only [bufferAfter, h, List.rightpad]
  by_cases hi : i < signature.length
  · rw [if_pos hi]
    by_cases hs : window.start + i < stream.length
    · rw [List.getElem?_append_left (by omega), Window.octets, List.getElem?_take_of_lt (by omega),
        List.getElem?_drop, List.getElem?_eq_getElem hs, Option.getD_some]
    · rw [List.getElem?_append_right (by omega), List.getElem?_replicate, if_pos (by omega),
        List.getElem?_eq_none (by omega), Option.getD_none]
  · rw [if_neg hi, List.getElem?_eq_none]
    simp only [List.length_append, List.length_replicate]
    omega

/-- The buffer of a window that the stream covers holds the octets of the window. -/
theorem bufferAfter_of_complete {stream : Bytes} (h : signature.window? total = some window)
    (hp : window.stop ≤ stream.length) :
    signature.bufferAfter total stream = window.octets stream := by
  have hlen : (window.octets stream).length = signature.length :=
    (Window.length_octets hp).trans (window?_length h)
  simp [bufferAfter, h, List.rightpad, hlen]

/-! ## before the first octet -/

theorem statusAfter_nil (h : signature.window? total = some window) :
    signature.statusAfter total [] = .pending window 0 := by
  have hbounds := window?_bounds h
  have hpos := signature.length_pos
  rw [statusAfter_of_pending h (by rw [position_nil]; omega), position_nil, Nat.zero_sub]

theorem bufferAfter_nil : signature.bufferAfter total [] = List.replicate signature.length 0 := by
  cases h : signature.window? total with
  | none => simp only [bufferAfter, h]
  | some window => simp [bufferAfter, h, Window.octets, List.rightpad]

/-! ## findings -/

/-- The finding of a signature whose window ends after the position `start` and
not after `stop`, if the stream has the pattern there. -/
def completion (signature : Signature) (total : Option Nat) (stream : Bytes) (start stop : Nat) :
    Option Finding :=
  match signature.locate total with
  | .ok (.window window) =>
    if start < window.stop ∧ window.stop ≤ stop ∧ window.octets stream = signature.pattern then
      some ⟨signature.identifier, window.start⟩
    else none
  | _ => none

theorem completion_of_window {stream : Bytes} (h : signature.window? total = some window)
    (start stop : Nat) :
    signature.completion total stream start stop =
      if start < window.stop ∧ window.stop ≤ stop ∧ window.octets stream = signature.pattern then
        some ⟨signature.identifier, window.start⟩
      else none := by
  simp only [completion, window?_eq_some_iff.mp h]

theorem completion_of_none {stream : Bytes} (h : signature.window? total = none)
    (start stop : Nat) : signature.completion total stream start stop = none := by
  unfold completion
  split
  · next window hw => rw [window?_eq_some_iff.mpr hw] at h; contradiction
  · rfl

/-- A signature that is still pending has no finding yet. -/
theorem completion_of_pending {stream : Bytes} (h : signature.pendingAfter total stream = true)
    (start : Nat) : signature.completion total stream start (position stream) = none := by
  obtain ⟨window, hw, hp⟩ := pendingAfter_iff.mp h
  rw [completion_of_window hw, if_neg fun h => Nat.not_le_of_lt hp h.2.1]

/-- A signature that is settled has no finding any more. -/
theorem completion_of_settled {stream taken : Bytes}
    (h : signature.pendingAfter total taken = false) (stop : Nat) :
    signature.completion total stream (position taken) stop = none := by
  cases hw : signature.window? total with
  | none => exact completion_of_none hw _ _
  | some window =>
      rw [completion_of_window hw, if_neg fun h' => Nat.not_le_of_lt h'.1 (stop_le_of_settled h hw)]

/-- Nothing falls between a position and itself. -/
theorem completion_self {stream : Bytes} (position : Nat) :
    signature.completion total stream position position = none := by
  cases hw : signature.window? total with
  | none => exact completion_of_none hw _ _
  | some window => rw [completion_of_window hw, if_neg fun h => Nat.not_le_of_lt h.1 h.2.1]

/-- What is complete at a position that the stream reached does not depend on
what comes next. -/
theorem completion_append {stream : Bytes} {stop : Nat} (h : stop ≤ stream.length) (more : Bytes)
    (start : Nat) :
    signature.completion total (stream ++ more) start stop =
      signature.completion total stream start stop := by
  cases hw : signature.window? total with
  | none => rw [completion_of_none hw, completion_of_none hw]
  | some window =>
      rw [completion_of_window hw, completion_of_window hw]
      by_cases hstop : window.stop ≤ stop
      · rw [Window.octets_append (Nat.le_trans hstop h)]
      · rw [if_neg fun h => hstop h.2.1, if_neg fun h => hstop h.2.1]

/-- What falls between two positions falls before a position between them or
after it. -/
theorem completion_split (stream : Bytes) {start middle stop : Nat} (h₁ : start ≤ middle)
    (h₂ : middle ≤ stop) :
    signature.completion total stream start middle = none ∧
        signature.completion total stream middle stop = signature.completion total stream start stop ∨
      signature.completion total stream start middle = signature.completion total stream start stop ∧
        signature.completion total stream middle stop = none := by
  cases hw : signature.window? total with
  | none => left; simp [completion_of_none hw]
  | some window =>
      simp only [completion_of_window hw]
      by_cases hmiddle : window.stop ≤ middle
      · right
        have hbefore : ¬ middle < window.stop := by omega
        have hstop : window.stop ≤ stop := by omega
        simp [hmiddle, hbefore, hstop]
      · left
        have hafter : middle < window.stop := by omega
        have hstart : start < window.stop := by omega
        simp [hmiddle, hafter, hstart]

/-- Up to a declared size, start anchors are found as if none was declared. -/
theorem completion_declared {size stop : Nat} (h : signature.anchor.anchorClass = .fromStart)
    (hstop : stop ≤ size) (stream : Bytes) (start : Nat) :
    signature.completion (some size) stream start stop =
      signature.completion none stream start stop := by
  have hdeclared := window?_declared h size
  cases hw : signature.window? none with
  | none =>
      rw [hw, Option.filter_none] at hdeclared
      rw [completion_of_none hdeclared, completion_of_none hw]
  | some window =>
      by_cases hsize : window.stop ≤ size
      · rw [hw, Option.filter_some, if_pos (decide_eq_true hsize)] at hdeclared
        rw [completion_of_window hdeclared, completion_of_window hw]
      · rw [hw, Option.filter_some, if_neg (by simpa using hsize)] at hdeclared
        rw [completion_of_none hdeclared, completion_of_window hw, if_neg (by omega)]

end Signature

/-! ## findings of a catalog -/

/-- Two selections that share out a third, put together. -/
theorem filterMap_append_perm {first second both : α → Option β} {list : List α}
    (h : ∀ a ∈ list, first a = none ∧ second a = both a ∨ first a = both a ∧ second a = none) :
    (list.filterMap first ++ list.filterMap second).Perm (list.filterMap both) := by
  induction list with
  | nil => exact .nil
  | cons a rest ih =>
      obtain ⟨ha, hrest⟩ := List.forall_mem_cons.mp h
      have ih := ih hrest
      simp only [List.filterMap_cons]
      rcases ha with ⟨hfirst, hsecond⟩ | ⟨hfirst, hsecond⟩
      · rw [hfirst, hsecond]
        cases both a with
        | none => exact ih
        | some b => exact List.perm_middle.trans (ih.cons b)
      · rw [hfirst, hsecond]
        cases both a with
        | none => exact ih
        | some b => exact ih.cons b

/-- The findings that fall after the position `start` and not after `stop`, in
order of registration. -/
def Catalog.completions (catalog : Catalog) (total : Option Nat) (stream : Bytes)
    (start stop : Nat) : List Finding :=
  catalog.signatures.toList.filterMap fun signature => signature.completion total stream start stop

theorem Catalog.completions_append (catalog : Catalog) (total : Option Nat) {stream : Bytes}
    {stop : Nat} (h : stop ≤ stream.length) (more : Bytes) (start : Nat) :
    catalog.completions total (stream ++ more) start stop =
      catalog.completions total stream start stop := by
  unfold completions
  congr 1
  funext signature
  exact Signature.completion_append h more start

/-- **What falls between two positions falls before or after any position
between them.** -/
theorem Catalog.completions_append_perm (catalog : Catalog) (total : Option Nat) (stream : Bytes)
    {start middle stop : Nat} (h₁ : start ≤ middle) (h₂ : middle ≤ stop) :
    (catalog.completions total stream start middle ++
      catalog.completions total stream middle stop).Perm
        (catalog.completions total stream start stop) :=
  filterMap_append_perm fun _ _ => Signature.completion_split stream h₁ h₂

theorem Catalog.completions_self (catalog : Catalog) (total : Option Nat) (stream : Bytes)
    (position : Nat) : catalog.completions total stream position position = [] :=
  List.filterMap_eq_nil_iff.mpr fun _ _ => Signature.completion_self position

end AnchorScan
