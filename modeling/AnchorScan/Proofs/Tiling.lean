import AnchorScan.Proofs.Windows
import Mathlib.Algebra.Ring.Nat
import Mathlib.Data.List.Chain

/-!
# AnchorScan.Proofs.Tiling

A window is made up of its parts.  What it shares with a range is what lies in both, and the
parts that it shares with the ranges between ordered cuts stand one behind another, without a
gap and without a position that is in two of them.

* `Window.Tiles`: windows one behind another, from a position to another;
* `Window.IsMadeUpOf`: what this says of a window and its parts;
* `Window.tiles_pieces`: the parts between cuts, from any first cut on;
* `Window.intersect_exact`: ranges take exact parts, and cuts around a window leave nothing out.
-/

namespace AnchorScan

namespace Window

/-- A position lies in a window. -/
def Covers (window : Window) (position : Nat) : Prop :=
  window.start ≤ position ∧ position < window.stop

/-! ## one range -/

section

variable {window part : Window} {start stop : Nat}

/-- The part of a window in a range covers what both of them do. -/
theorem covers_of_intersect (h : window.intersect start stop = some part) (position : Nat) :
    part.Covers position ↔ window.Covers position ∧ start ≤ position ∧ position < stop := by
  obtain ⟨-, hstart, hstop⟩ := intersect_eq_some_iff.mp h
  unfold Covers
  omega

/-- A window has no part in a range just when there is no position in both. -/
theorem intersect_eq_none_iff_covers :
    window.intersect start stop = none ↔
      ∀ position, ¬ (window.Covers position ∧ start ≤ position ∧ position < stop) := by
  unfold Covers
  constructor
  · intro h position
    have hle := intersect_eq_none_iff.mp h
    omega
  · intro h
    -- where the part would begin is a position that it would cover
    have hfirst := h (max window.start start)
    exact intersect_eq_none_iff.mpr (by omega)

end

/-! ## windows one behind another -/

/-- Windows that stand one behind another from a position to another, none of them empty. -/
inductive Tiles : Nat → List Window → Nat → Prop
  | nil (position : Nat) : Tiles position [] position
  | cons {window : Window} {rest : List Window} {stop : Nat} (nonempty : window.start < window.stop)
      (behind : Tiles window.stop rest stop) : Tiles window.start (window :: rest) stop

/-- The parts of a window are not empty, adjacent in their order and without overlap; they have
its length together, and begin and end where it does. -/
structure IsMadeUpOf (window : Window) (parts : List Window) : Prop where
  sum_length : (parts.map length).sum = window.length
  nonempty : ∀ part ∈ parts, part.start < part.stop
  adjacent : parts.IsChain fun part next => part.stop = next.start
  apart : parts.Pairwise fun part later => part.stop ≤ later.start
  first : window.start < window.stop → parts.head?.map (·.start) = some window.start
  last : window.start < window.stop → parts.getLast?.map (·.stop) = some window.stop

namespace Tiles

variable {windows : List Window} {start stop : Nat}

theorem add_sum_length (tiles : Tiles start windows stop) :
    start + (windows.map length).sum = stop := by
  induction tiles with
  | nil => rfl
  | cons nonempty _ ih =>
      rw [List.map_cons, List.sum_cons, length]
      omega

/-- All of the windows lie behind where they begin. -/
theorem le_start (tiles : Tiles start windows stop) :
    ∀ window ∈ windows, start ≤ window.start ∧ window.start < window.stop := by
  induction tiles with
  | nil => exact List.forall_mem_nil _
  | cons nonempty _ ih =>
      refine List.forall_mem_cons.mpr ⟨⟨Nat.le_refl _, nonempty⟩, fun window hmem => ?_⟩
      have hwindow := ih window hmem
      omega

theorem eq_start {window : Window} (tiles : Tiles start (window :: windows) stop) :
    start = window.start := by
  cases tiles
  rfl

theorem head?_start (tiles : Tiles start windows stop) (h : start < stop) :
    windows.head?.map (·.start) = some start := by
  cases tiles with
  | nil => exact absurd h (Nat.lt_irrefl _)
  | cons => rfl

theorem isChain (tiles : Tiles start windows stop) :
    windows.IsChain fun window next => window.stop = next.start := by
  induction tiles with
  | nil => exact .nil
  | @cons window rest stop _ behind ih =>
      cases rest with
      | nil => exact .singleton window
      | cons next rest => exact .cons_cons behind.eq_start ih

theorem pairwise (tiles : Tiles start windows stop) :
    windows.Pairwise fun window later => window.stop ≤ later.start := by
  induction tiles with
  | nil => exact .nil
  | cons _ behind ih => exact .cons (fun later hmem => (behind.le_start later hmem).1) ih

theorem getLast?_stop (tiles : Tiles start windows stop) (h : start < stop) :
    windows.getLast?.map (·.stop) = some stop := by
  induction tiles with
  | nil => exact absurd h (Nat.lt_irrefl _)
  | @cons window rest stop _ behind ih =>
      have hsum := behind.add_sum_length
      cases rest with
      | nil => exact congrArg some hsum
      | cons next rest =>
          have hnext := behind.le_start next List.mem_cons_self
          rw [List.map_cons, List.sum_cons, length] at hsum
          rw [List.getLast?_cons_cons]
          exact ih (by omega)

theorem isMadeUpOf {window : Window} (tiles : Tiles window.start windows window.stop) :
    window.IsMadeUpOf windows where
  sum_length := by
    have hsum := tiles.add_sum_length
    rw [length]
    omega
  nonempty part hmem := (tiles.le_start part hmem).2
  adjacent := tiles.isChain
  apart := tiles.pairwise
  first := tiles.head?_start
  last := tiles.getLast?_stop

end Tiles

/-! ## ranges between cuts -/

/-- The parts of a window in the ranges between one cut and the next, where it has any. -/
def pieces (window : Window) (cuts : List Nat) : List Window :=
  (cuts.zip cuts.tail).filterMap fun range => window.intersect range.1 range.2

/-- Where the parts of a window begin that lie behind a cut. -/
def resume (window : Window) (cut : Nat) : Nat := max window.start (min cut window.stop)

/-- A range takes the parts from where they begin behind its first cut to where they do behind
its second. -/
theorem tiles_pieces_cons {window : Window} {first second : Nat} {rest : List Nat}
    (hle : first ≤ second)
    (tiles : Tiles (window.resume second) (window.pieces (second :: rest)) window.stop) :
    Tiles (window.resume first) (window.pieces (first :: second :: rest)) window.stop := by
  have hwindow := window.start_le_stop
  unfold resume at tiles ⊢
  cases hpart : window.intersect first second with
  | none =>
      have hnone := intersect_eq_none_iff.mp hpart
      have hsame : max window.start (min first window.stop) =
          max window.start (min second window.stop) := by omega
      have hpieces : window.pieces (first :: second :: rest) = window.pieces (second :: rest) :=
        List.filterMap_cons_none hpart
      rw [hsame, hpieces]
      exact tiles
  | some part =>
      obtain ⟨hlt, hstart, hstop⟩ := intersect_eq_some_iff.mp hpart
      have hfirst : max window.start (min first window.stop) = part.start := by omega
      have hsecond : max window.start (min second window.stop) = part.stop := by omega
      have hpieces : window.pieces (first :: second :: rest) =
          part :: window.pieces (second :: rest) := List.filterMap_cons_some hpart
      rw [hfirst, hpieces]
      exact .cons hlt (hsecond ▸ tiles)

/-- Ordered cuts that reach the end of a window leave out nothing behind the first of them. -/
theorem tiles_pieces (window : Window) {first : Nat} {rest : List Nat}
    (sorted : (first :: rest).Pairwise (· ≤ ·))
    (reached : window.stop ≤ (first :: rest).getLast (List.cons_ne_nil _ _)) :
    Tiles (window.resume first) (window.pieces (first :: rest)) window.stop := by
  induction rest generalizing first with
  | nil =>
      have hwindow := window.start_le_stop
      have hstop : window.resume first = window.stop := by
        rw [List.getLast_singleton] at reached
        unfold resume
        omega
      rw [hstop]
      exact .nil _
  | cons second rest ih =>
      obtain ⟨hfirst, hrest⟩ := List.pairwise_cons.mp sorted
      rw [List.getLast_cons_cons] at reached
      exact tiles_pieces_cons (hfirst second List.mem_cons_self) (ih hrest reached)

/-- **A window is made up of its parts.**  The part in a range, which may be reversed, is not
empty and covers exactly the positions that lie in both; there is none if no position does.  The
parts between ordered cuts, of which the first is not behind the start of the window and the
last not before its end, make up the window. -/
theorem intersect_exact (window : Window) :
    (∀ start stop, (window.intersect start stop = none ↔
        ∀ position, ¬ (window.Covers position ∧ start ≤ position ∧ position < stop)) ∧
      ∀ part, window.intersect start stop = some part → part.start < part.stop ∧
        ∀ position, part.Covers position ↔
          window.Covers position ∧ start ≤ position ∧ position < stop) ∧
    ∀ (cuts : List Nat) (ne : cuts ≠ []), cuts.Pairwise (· ≤ ·) →
      cuts.head ne ≤ window.start → window.stop ≤ cuts.getLast ne →
      window.IsMadeUpOf (window.pieces cuts) := by
  constructor
  · intro start stop
    exact ⟨intersect_eq_none_iff_covers, fun part h =>
      ⟨(intersect_eq_some_iff.mp h).1, covers_of_intersect h⟩⟩
  · intro cuts ne sorted hfirst hlast
    cases cuts with
    | nil => contradiction
    | cons first rest =>
        rw [List.head_cons] at hfirst
        have hwindow := window.start_le_stop
        have hresume : window.resume first = window.start := by
          unfold resume
          omega
        have tiles := window.tiles_pieces sorted hlast
        rw [hresume] at tiles
        exact tiles.isMadeUpOf

/-- A window that ends at the largest position, with a cut in it, one that is made twice and
cuts on both of its bounds. -/
theorem intersect_exact_of_repeated_cuts :
    let window : Window := ⟨4, maxPosition, by decide⟩
    let cuts := [0, 4, 4, 9, 9, maxPosition]
    cuts.Pairwise (· ≤ ·) ∧ cuts.head (by decide) ≤ window.start ∧
      window.stop ≤ cuts.getLast (by decide) ∧
      window.pieces cuts = [⟨4, 9, by decide⟩, ⟨9, maxPosition, by decide⟩] ∧
      window.IsMadeUpOf (window.pieces cuts) ∧ window.intersect 9 4 = none := by
  intro window cuts
  have sorted : cuts.Pairwise (· ≤ ·) := by decide
  obtain ⟨hrange, hcuts⟩ := intersect_exact window
  refine ⟨sorted, by decide, by decide, by decide, ?_, ?_⟩
  · exact hcuts cuts (by decide) sorted (by decide) (by decide)
  · exact (hrange 9 4).1.mpr fun position h => by omega

end Window

end AnchorScan
