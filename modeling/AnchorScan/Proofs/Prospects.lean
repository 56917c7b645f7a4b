import AnchorScan.Proofs.LoadedFile
import AnchorScan.Proofs.Representation

/-!
# AnchorScan.Proofs.Prospects

What a session looks for: patterns in windows.  The prospects of a catalog are
all that its sessions depend on, whatever anchors the windows were counted from
and whoever has none.

* `Catalog.completions_eq_prospects` and `Catalog.length_waiting_eq_prospects`:
  findings and pending signatures told from the prospects alone;
* `Session.Twins.perform`: sessions over two catalogs go side by side, request by
  request, and `Catalog.sameScans_of_prospects` says that nobody can tell them
  apart if the prospects are the same;
* `Catalog.sameScans_restated`: an end anchor can be restated as a start anchor
  once the size is known, and one that leads nowhere can be left out.
-/

namespace AnchorScan

/-! ## prospects -/

/-- A pattern in the window where it is looked for. -/
structure Prospect where
  identifier : String
  window : Window
  pattern : Bytes

/-- The finding of a prospect whose window ends after `start` and by `stop`. -/
def Prospect.completion (prospect : Prospect) (stream : Bytes) (start stop : Nat) :
    Option Finding :=
  if start < prospect.window.stop ∧ prospect.window.stop ≤ stop ∧
      prospect.window.octets stream = prospect.pattern then
    some ⟨prospect.identifier, prospect.window.start⟩
  else none

/-- The position that an anchor leads to, if it leads to any. -/
def Anchor.position? (total : Option Nat) : Anchor → Option Nat
  | fromStart offset => some offset
  | fromEnd offset => total.bind fun size => if offset ≤ size then some (size - offset) else none

/-- The prospect of a definition, if it has a window. -/
def Definition.prospect? (definition : Definition) (total : Option Nat) : Option Prospect :=
  (definition.anchor.position? total).bind fun start =>
    match windowFrom start definition.pattern.length total with
    | .window window => some ⟨definition.identifier, window, definition.pattern⟩
    | .outOfRange => none

/-- The prospects of the definitions in a catalog, in order. -/
def Catalog.prospects (catalog : Catalog) (total : Option Nat) : List Prospect :=
  catalog.definitions.filterMap (·.prospect? total)

namespace Signature

variable {signature : Signature} {total : Option Nat} {stream : Bytes}

theorem locate_of_position? {start : Nat} (h : signature.anchor.position? total = some start) :
    signature.locate total = .ok (windowFrom start signature.length total) := by
  unfold locate
  cases hanchor : signature.anchor with
  | fromStart offset =>
      rw [hanchor] at h
      cases h
      rfl
  | fromEnd offset =>
      rw [hanchor] at h
      cases total with
      | none => contradiction
      | some size =>
          obtain ⟨hle, hstart⟩ := Option.ite_none_right_eq_some.mp h
          cases hstart
          exact if_pos hle

/-- A signature has no window if its anchor leads nowhere. -/
theorem window?_of_position? (h : signature.anchor.position? total = none) :
    signature.window? total = none := by
  unfold window? locate
  cases hanchor : signature.anchor with
  | fromStart offset => rw [hanchor] at h; contradiction
  | fromEnd offset =>
      rw [hanchor] at h
      cases total with
      | none => rfl
      | some size =>
          by_cases hle : offset ≤ size
          · cases (if_pos hle).symm.trans h
          · simp [hle]

/-- A signature has a prospect if it has a window. -/
theorem prospect?_eq_map (signature : Signature) (total : Option Nat) :
    signature.prospect? total = (signature.window? total).map fun window =>
      ⟨signature.identifier, window, signature.pattern⟩ := by
  unfold Definition.prospect?
  cases hposition : signature.anchor.position? total with
  | none => rw [window?_of_position? hposition]; rfl
  | some start =>
      have hlocate : signature.locate total =
          .ok (windowFrom start signature.pattern.length total) := locate_of_position? hposition
      rw [window?, hlocate, Option.bind_some]
      cases windowFrom start signature.pattern.length total <;> rfl

theorem completion_eq_bind (start stop : Nat) :
    signature.completion total stream start stop =
      (signature.prospect? total).bind (·.completion stream start stop) := by
  rw [prospect?_eq_map]
  cases hw : signature.window? total with
  | none => exact completion_of_none hw start stop
  | some window => exact completion_of_window hw start stop

theorem pendingAfter_eq_any :
    signature.pendingAfter total stream =
      (signature.prospect? total).any (position stream < ·.window.stop) := by
  rw [prospect?_eq_map, Bool.eq_iff_iff, pendingAfter_iff]
  cases signature.window? total <;> simp

end Signature

namespace Catalog

variable {catalog other : Catalog} {total : Option Nat}

/-- Findings depend on the prospects alone. -/
theorem completions_eq_prospects (stream : Bytes) (start stop : Nat) :
    catalog.completions total stream start stop =
      (catalog.prospects total).filterMap (·.completion stream start stop) := by
  unfold completions prospects definitions
  rw [List.filterMap_filterMap, List.filterMap_map]
  exact List.filterMap_congr fun signature _ => Signature.completion_eq_bind start stop

/-- So does the number of signatures that are pending. -/
theorem length_waiting_eq_prospects (stream : Bytes) :
    (catalog.waiting total stream).length =
      (catalog.prospects total).countP (position stream < ·.window.stop) := by
  unfold waiting prospects definitions
  rw [← List.countP_eq_length_filter, List.countP_filterMap, List.countP_map]
  refine List.countP_congr fun signature _ => ?_
  rw [Signature.pendingAfter_eq_any, Function.comp_apply]
  cases signature.prospect? total <;> simp

theorem completionsBy_eq_of_prospects (h : catalog.prospects total = other.prospects total)
    (chunks : List Bytes) : catalog.completionsBy total chunks = other.completionsBy total chunks := by
  simp only [completionsBy, completions_eq_prospects, h]

end Catalog

/-! ## sessions side by side -/

namespace Session

/-- What a session replies to requests. -/
def replies : Session → List Request → List (Except Failure Unit)
  | _, [] => []
  | session, request :: rest =>
    (session.perform request).reply :: (session.perform request).state.replies rest

/-- Sessions that look the same from outside. -/
structure LooksLike (session other : Session) : Prop where
  phase : session.phase = other.phase
  total : session.total = other.total
  cursor : session.cursor = other.cursor
  pending : session.pending = other.pending
  findings : session.findings = other.findings

/-- Sessions over two catalogs that went the same way. -/
inductive Twins (catalog other : Catalog) (size : Nat) : Session → Session → Prop
  | created : Twins catalog other size (withTotal catalog (some size)) (withTotal other (some size))
  | underWay (chunks : List Bytes) : Twins catalog other size
      (underWay catalog (some size) chunks) (underWay other (some size) chunks)
  | halted (chunks : List Bytes) : Twins catalog other size
      (halted catalog (some size) chunks) (halted other (some size) chunks)

namespace Twins

variable {catalog other : Catalog} {size : Nat} {first second : Session}

/-- Twins reply the same to every request and are twins afterwards. -/
theorem perform (twins : Twins catalog other size first second) (laidOut : catalog.LaidOut)
    (laidOutOther : other.LaidOut) (request : Request) :
    (first.perform request).reply = (second.perform request).reply ∧
      Twins catalog other size (first.perform request).state (second.perform request).state := by
  cases twins with
  | created =>
      cases request with
      | declareTotal | feed | stop => exact ⟨rfl, .created⟩
      | start =>
          -- the size is there, so that neither start is refused
          have hlacks (catalog : Catalog) : ¬ catalog.LacksTotal (some size) :=
            fun lacks => Bool.false_ne_true lacks.1
          simp only [Session.perform]
          rw [start_withTotal laidOut, start_withTotal laidOutOther, if_neg (hlacks catalog),
            if_neg (hlacks other)]
          exact ⟨rfl, .underWay []⟩
  | underWay chunks =>
      cases request with
      | declareTotal | start => exact ⟨rfl, .underWay chunks⟩
      | stop => exact ⟨rfl, .halted chunks⟩
      | feed chunk =>
          simp only [Session.perform]
          rw [reply_feed_underWay, reply_feed_underWay, state_feed_underWay laidOut,
            state_feed_underWay laidOutOther]
          exact ⟨rfl, .underWay (chunks ++ [chunk])⟩
  | halted chunks => cases request <;> exact ⟨rfl, .halted chunks⟩

/-- So it is for any number of requests. -/
theorem performAll (twins : Twins catalog other size first second) (laidOut : catalog.LaidOut)
    (laidOutOther : other.LaidOut) (requests : List Request) :
    first.replies requests = second.replies requests ∧
      Twins catalog other size (first.performAll requests) (second.performAll requests) := by
  induction requests generalizing first second with
  | nil => exact ⟨rfl, twins⟩
  | cons request rest ih =>
      obtain ⟨hreply, hstate⟩ := twins.perform laidOut laidOutOther request
      obtain ⟨hreplies, hstates⟩ := ih hstate
      exact ⟨by rw [replies, replies, hreply, hreplies], hstates⟩

/-- Twins with the same prospects look the same. -/
theorem looksLike (twins : Twins catalog other size first second)
    (h : catalog.prospects (some size) = other.prospects (some size)) : first.LooksLike second := by
  cases twins with
  | created => exact ⟨rfl, rfl, rfl, rfl, rfl⟩
  | underWay chunks =>
      refine ⟨rfl, rfl, rfl, ?_, Catalog.completionsBy_eq_of_prospects h chunks⟩
      rw [pending_underWay, pending_underWay, Catalog.length_waiting_eq_prospects,
        Catalog.length_waiting_eq_prospects, h]
  | halted chunks => exact ⟨rfl, rfl, rfl, rfl, Catalog.completionsBy_eq_of_prospects h chunks⟩

/-- A signature without a window is rejected from the start on. -/
theorem rejected (twins : Twins catalog other size first second) (laidOut : catalog.LaidOut)
    {index : Nat} {signature : Signature} (hget : catalog.get? index = some signature)
    (hw : signature.window? (some size) = none) :
    index ∉ first.progress.live ∧
      (first.phase ≠ .created → first.progress.statuses[index]? = some .rejected) := by
  have hstatus (stream : Bytes) : signature.statusAfter (some size) stream = .rejected := by
    rw [Signature.statusAfter, hw]
  cases twins with
  | created => exact ⟨List.not_mem_nil, fun h => absurd rfl h⟩
  | underWay chunks =>
      refine ⟨fun hlive => ?_, fun _ => ?_⟩
      · obtain ⟨found, hfound, hpending⟩ := laidOut.mem_live_after_iff.mp hlive
        obtain rfl : signature = found := Option.some.inj (hget.symm.trans hfound)
        rw [Signature.pendingAfter, hstatus] at hpending
        contradiction
      · exact Progress.getElem?_statuses_after_eq_some_iff.mpr ⟨signature, hget, hstatus _⟩
  | halted chunks =>
      refine ⟨List.not_mem_nil, fun _ => ?_⟩
      show (Progress.after catalog (some size) chunks.flatten
        (catalog.completionsBy (some size) chunks)).statuses[index]? = _
      exact Progress.getElem?_statuses_after_eq_some_iff.mpr ⟨signature, hget, hstatus _⟩

end Twins

end Session

/-! ## catalogs that cannot be told apart -/

namespace Catalog

/-- Whatever is requested of sessions over the catalogs, they reply and look the
same, as long as the stream has the declared size. -/
def SameScans (catalog other : Catalog) (size : Nat) : Prop :=
  ∀ requests : List Session.Request,
    (Session.withTotal catalog (some size)).replies requests =
        (Session.withTotal other (some size)).replies requests ∧
      ((Session.withTotal catalog (some size)).performAll requests).LooksLike
        ((Session.withTotal other (some size)).performAll requests)

/-- **Scans depend on the prospects alone.** -/
theorem sameScans_of_prospects {catalog other : Catalog} {size : Nat} (laidOut : catalog.LaidOut)
    (laidOutOther : other.LaidOut)
    (h : catalog.prospects (some size) = other.prospects (some size)) :
    catalog.SameScans other size := by
  intro requests
  obtain ⟨hreplies, htwins⟩ := Session.Twins.created.performAll laidOut laidOutOther requests
  exact ⟨hreplies, htwins.looksLike h⟩

end Catalog

/-! ## end anchors -/

namespace Definition

/-- A definition as it is, or one with an end anchor restated with the start
anchor that leads to the same position. -/
inductive Restated (size : Nat) : Definition → Definition → Prop
  | same (definition : Definition) : Restated size definition definition
  | counted (identifier : String) (pattern : Bytes) {offset : Nat} (h : offset ≤ size) :
      Restated size ⟨identifier, .fromEnd offset, pattern⟩
        ⟨identifier, .fromStart (size - offset), pattern⟩

/-- An end anchor from which there is no room for the pattern. -/
def hopeless (size : Nat) (definition : Definition) : Bool :=
  match definition.anchor with
  | .fromStart _ => false
  | .fromEnd offset => size < offset || offset < definition.pattern.length

variable {definition other : Definition} {size : Nat}

theorem Restated.prospect?_eq (restated : definition.Restated size other) :
    definition.prospect? (some size) = other.prospect? (some size) := by
  cases restated with
  | same => rfl
  | @counted identifier pattern offset h =>
      have hposition : (Anchor.fromEnd offset).position? (some size) = some (size - offset) := if_pos h
      unfold prospect?
      rw [hposition]
      rfl

theorem prospect?_of_hopeless (h : definition.hopeless size = true) :
    definition.prospect? (some size) = none := by
  unfold prospect?
  unfold hopeless at h
  cases hanchor : definition.anchor with
  | fromStart offset => rw [hanchor] at h; contradiction
  | fromEnd offset =>
      simp only [hanchor, Bool.or_eq_true, decide_eq_true_eq] at h
      by_cases hle : offset ≤ size
      · have hposition : (Anchor.fromEnd offset).position? (some size) = some (size - offset) :=
          if_pos hle
        have hpast : ¬ size - offset + definition.pattern.length ≤ size := by omega
        have hrange : windowFrom (size - offset) definition.pattern.length (some size) = .outOfRange :=
          if_neg fun hfits => hpast (of_decide_eq_true hfits.2)
        rw [hposition, Option.bind_some, hrange]
      · have hposition : (Anchor.fromEnd offset).position? (some size) = none := if_neg hle
        rw [hposition, Option.bind_none]

end Definition

namespace Catalog

variable {catalog other : Catalog} {size : Nat}

theorem prospects_eq_of_restated
    (h : List.Forall₂ (Definition.Restated size) catalog.definitions other.definitions) :
    catalog.prospects (some size) = other.prospects (some size) := by
  unfold prospects
  generalize catalog.definitions = definitions, other.definitions = others at h
  induction h with
  | nil => rfl
  | cons restated _ ih => rw [List.filterMap_cons, List.filterMap_cons, restated.prospect?_eq, ih]

theorem prospects_eq_of_filter
    (h : other.definitions = catalog.definitions.filter fun definition => !definition.hopeless size) :
    catalog.prospects (some size) = other.prospects (some size) := by
  unfold prospects
  rw [h, List.filterMap_filter]
  refine List.filterMap_congr fun definition _ => ?_
  cases hhopeless : definition.hopeless size with
  | true => exact Definition.prospect?_of_hopeless hhopeless
  | false => rfl

/-- **End anchors are start anchors counted from the declared size.**  Scans of a
stream of that size cannot be told apart if any of the end anchors are restated
as start anchors, or if those that have no room are left out.  These are rejected
from the start on, whatever is requested, and nobody looks for them. -/
theorem sameScans_restated (built : catalog.Built) (size : Nat) :
    (∀ other : Catalog, other.Built →
      List.Forall₂ (Definition.Restated size) catalog.definitions other.definitions →
        catalog.SameScans other size) ∧
      (∀ other : Catalog, other.Built →
        (other.definitions =
            catalog.definitions.filter fun definition => !definition.hopeless size) →
          catalog.SameScans other size) ∧
      ∀ index signature, catalog.get? index = some signature →
        signature.hopeless size = true → ∀ requests,
          let session := (Session.withTotal catalog (some size)).performAll requests
          index ∉ session.progress.live ∧
            (session.phase ≠ .created → session.progress.statuses[index]? = some .rejected) := by
  have laidOut := built.laidOut
  refine ⟨fun other hbuilt hrestated => ?_, fun other hbuilt hfilter => ?_,
    fun index signature hget hhopeless requests => ?_⟩
  · exact sameScans_of_prospects laidOut hbuilt.laidOut (prospects_eq_of_restated hrestated)
  · exact sameScans_of_prospects laidOut hbuilt.laidOut (prospects_eq_of_filter hfilter)
  · have hprospect := Definition.prospect?_of_hopeless hhopeless
    rw [signature.prospect?_eq_map, Option.map_eq_none_iff] at hprospect
    have htwins : Session.Twins catalog catalog size _ _ :=
      (Session.Twins.created.performAll laidOut laidOut requests).2
    exact htwins.rejected laidOut hget hprospect

/-- In a stream of five octets the start anchor of `head` leads where an end anchor
would, and `far` leads nowhere. -/
theorem sameScans_restated_sample :
    let far : Definition := ⟨"far", .fromEnd 9, [5]⟩
    let catalog := (sample.register far).state
    let restated := (empty.load [⟨"tail", .fromStart 3, [3, 4]⟩, ⟨"head", .fromStart 1, [1, 2]⟩, far]).state
    let requests : List Session.Request := [.start, .feed [0, 1, 2, 3], .feed [4], .stop]
    catalog.Built ∧ restated.Built ∧
      List.Forall₂ (Definition.Restated 5) catalog.definitions restated.definitions ∧
      catalog.SameScans restated 5 ∧
      sample.definitions = (catalog.definitions.filter fun definition => !definition.hopeless 5) ∧
      catalog.SameScans sample 5 ∧
      ((Session.withTotal restated (some 5)).performAll requests).findings =
        [⟨"head", 1⟩, ⟨"tail", 3⟩] ∧
      far.hopeless 5 = true ∧
      2 ∉ ((Session.withTotal catalog (some 5)).performAll requests).progress.live ∧
      ((Session.withTotal catalog (some 5)).performAll requests).progress.statuses[2]? =
        some .rejected := by
  intro far catalog restated requests
  have built : catalog.Built := .register built_sample far
  have builtRestated : restated.Built := .load .empty _
  have hrestated : List.Forall₂ (Definition.Restated 5) catalog.definitions restated.definitions :=
    .cons (.counted "tail" [3, 4] (by decide)) (.cons (.same _) (.cons (.same _) .nil))
  have hfilter : sample.definitions =
      catalog.definitions.filter fun definition => !definition.hopeless 5 := by decide
  have hhopeless : far.hopeless 5 = true := by decide
  have hget : catalog.get? 2 = some ⟨far, 2, 4, by decide⟩ := by decide
  have begun : ((Session.withTotal catalog (some 5)).performAll requests).phase ≠ .created := by
    decide +kernel
  have hfindings : ((Session.withTotal restated (some 5)).performAll requests).findings =
      [⟨"head", 1⟩, ⟨"tail", 3⟩] := by decide +kernel
  obtain ⟨hsame, hwithout, hrejected⟩ := sameScans_restated built 5
  obtain ⟨hlive, hstatus⟩ := hrejected 2 _ hget hhopeless requests
  exact ⟨built, builtRestated, hrestated, hsame restated builtRestated hrestated, hfilter,
    hwithout sample built_sample hfilter, hfindings, hhopeless, hlive, hstatus begun⟩

end Catalog

end AnchorScan
