import AnchorScan.Proofs.Streaming
import Mathlib.Data.List.Induction

/-!
# AnchorScan.Proofs.Chunking

Where a stream is cut does not matter.  Two sessions that took in the same
stream agree in everything but the order of their findings
(`Session.underWay_sameUpToOrder`): the chunks decide only when a window is
completed, and so before or after which others it is found.

* `Session.feed_append`: one chunk or its two halves, and any two ways to cut a
  stream, lead a session to the same state.
-/

namespace AnchorScan

/-- All findings of a stream, in order of registration. -/
def Catalog.findingsIn (catalog : Catalog) (total : Option Nat) (stream : Bytes) : List Finding :=
  catalog.completions total stream 0 (position stream)

/-- Chunk by chunk the findings are those of the stream, in another order. -/
theorem Catalog.completionsBy_perm (catalog : Catalog) (total : Option Nat) (chunks : List Bytes) :
    (catalog.completionsBy total chunks).Perm (catalog.findingsIn total chunks.flatten) := by
  induction chunks using List.reverseRecOn with
  | nil => exact .of_eq (catalog.completions_self total [] 0).symm
  | append_singleton chunks chunk ih =>
      rw [completionsBy_concat, List.flatten_concat, findingsIn]
      have hprefix : catalog.completions total (chunks.flatten ++ chunk) 0 (position chunks.flatten) =
          catalog.findingsIn total chunks.flatten :=
        catalog.completions_append total (position_le_length _) chunk 0
      rw [← hprefix] at ih
      exact (ih.append_right _).trans (catalog.completions_append_perm total _ (Nat.zero_le _)
        (position_le_append chunks.flatten chunk))

namespace Session

/-- Two sessions agree in everything but the order of their findings. -/
structure SameUpToOrder (first second : Session) : Prop where
  catalog_eq : first.catalog = second.catalog
  phase_eq : first.phase = second.phase
  total_eq : first.total = second.total
  cursor_eq : first.progress.cursor = second.progress.cursor
  arena_eq : first.progress.arena = second.progress.arena
  statuses_eq : first.progress.statuses = second.progress.statuses
  live_eq : first.progress.live = second.progress.live
  overrunNoted_eq : first.overrunNoted = second.overrunNoted
  findings_perm : first.findings.Perm second.findings

variable {catalog : Catalog} {total : Option Nat}

/-- **Sessions that took in the same stream agree.** -/
theorem underWay_sameUpToOrder {chunks others : List Bytes} (h : chunks.flatten = others.flatten) :
    (underWay catalog total chunks).SameUpToOrder (underWay catalog total others) where
  catalog_eq := rfl
  phase_eq := rfl
  total_eq := rfl
  cursor_eq := by simp only [underWay, Progress.after, h]
  arena_eq := by simp only [underWay, Progress.after, h]
  statuses_eq := by simp only [underWay, Progress.after, h]
  live_eq := by simp only [underWay, Progress.after, h]
  overrunNoted_eq := by simp only [underWay, h]
  findings_perm := by
    have hperm := catalog.completionsBy_perm total others
    rw [← h] at hperm
    exact (catalog.completionsBy_perm total chunks).trans hperm.symm

/-- **Where a stream is cut does not matter.**  From every session under way, a
chunk and its two halves lead to the same state up to the order of findings, and
so do any two ways to cut the rest of the stream into chunks. -/
theorem feed_append {session : Session} {fed : List Bytes} (reached : session.Reached fed)
    (started : session.phase = .started) :
    (∀ first second : Bytes,
      (session.feed first).reply = .ok () ∧
        ((session.feed first).state.feed second).reply = .ok () ∧
        (session.feed (first ++ second)).reply = .ok () ∧
        ((session.feed first).state.feed second).state.SameUpToOrder
          (session.feed (first ++ second)).state) ∧
      ∀ chunks others : List Bytes, chunks.flatten = others.flatten →
        (session.feedAll chunks).reply = .ok () ∧ (session.feedAll others).reply = .ok () ∧
          (session.feedAll chunks).state.SameUpToOrder (session.feedAll others).state := by
  obtain ⟨laidOut, hsession⟩ := reached.known.of_started started
  rw [hsession]
  constructor
  · intro first second
    rw [state_feed_underWay laidOut, state_feed_underWay laidOut, state_feed_underWay laidOut]
    refine ⟨reply_feed_underWay first, reply_feed_underWay second, reply_feed_underWay _, ?_⟩
    exact underWay_sameUpToOrder (by simp)
  · intro chunks others h
    obtain ⟨hchunks, hstate⟩ := @feedAll_underWay _ session.total fed laidOut chunks
    obtain ⟨hothers, hstate'⟩ := @feedAll_underWay _ session.total fed laidOut others
    rw [hstate, hstate']
    exact ⟨hchunks, hothers, underWay_sameUpToOrder (by simp [h])⟩

theorem feed_append_sample :
    let session := (withTotal Catalog.sample (some 5)).start.state
    session.Reached [] ∧ session.phase = .started ∧
      ((session.feed [0, 1, 2]).state.feed [3, 4, 9]).state.SameUpToOrder
        (session.feed [0, 1, 2, 3, 4, 9]).state ∧
      ((session.feed [0, 1, 2]).state.feed [3, 4, 9]).state.findings = [⟨"head", 1⟩, ⟨"tail", 3⟩] ∧
      (session.feed [0, 1, 2, 3, 4, 9]).state.findings = [⟨"tail", 3⟩, ⟨"head", 1⟩] := by
  intro session
  have reached : session.Reached [] := .start (.opened Catalog.built_sample (some 5))
  have started : session.phase = .started := rfl
  obtain ⟨-, -, -, hsame⟩ := (feed_append reached started).1 [0, 1, 2] [3, 4, 9]
  exact ⟨reached, started, hsame, by decide +kernel, by decide +kernel⟩

end Session

end AnchorScan
