import Mathlib.Tactic.Linarith

/-!
# Incremental decoding

A decoder keeps what it was given until the front of it is complete. What it does with a complete front
does not depend on what follows, so that the way the input is cut into pieces makes no difference to it.
-/

namespace AnboxReboxed.Lib

/-- What a decoder in state `s` says about the front of its input. -/
inductive Verdict (σ : Type) where
  /-- More input is needed. -/
  | more
  /-- The first `n` elements are done with; the new state is `s`. -/
  | consumed (n : Nat) (s : σ)
  /-- The input is refused. -/
  | refused (s : σ)

/-- A decoder: its verdict stands when more input comes, and it always gets on. -/
structure Framing (σ α : Type) where
  next : σ → List α → Verdict σ
  stable : ∀ s l m, next s l ≠ .more → next s (l ++ m) = next s l
  shrinks : ∀ s l n s', next s l = .consumed n s' → 0 < n ∧ n ≤ l.length

/-- Where a decoder has come to: it waits with some input left, or it has refused the input. -/
inductive Decoded (σ α : Type) where
  | waiting (s : σ) (rest : List α)
  | refused (s : σ)

namespace Framing

variable {σ α : Type} (F : Framing σ α)

/-- Decode as much as possible. -/
def drive (s : σ) (l : List α) : Decoded σ α :=
  match _h : F.next s l with
  | .more => .waiting s l
  | .refused s' => .refused s'
  | .consumed n s' => drive s' (l.drop n)
termination_by l.length
decreasing_by
  have := F.shrinks s l n s' _h
  rw [List.length_drop]
  omega

/-- Decode one more piece of input. -/
def feed : Decoded σ α → List α → Decoded σ α
  | .waiting s rest, l => F.drive s (rest ++ l)
  | .refused s, _ => .refused s

variable {F}

theorem drive_more {s : σ} {l : List α} (h : F.next s l = .more) : F.drive s l = .waiting s l := by
  rw [drive]
  split
  · rfl
  · rename_i hr
    rw [h] at hr
    cases hr
  · rename_i hr
    rw [h] at hr
    cases hr

theorem drive_refused {s s' : σ} {l : List α} (h : F.next s l = .refused s') :
    F.drive s l = .refused s' := by
  rw [drive]
  split
  · rename_i hr
    rw [h] at hr
    cases hr
  · rename_i hr
    rw [h] at hr
    cases hr
    rfl
  · rename_i hr
    rw [h] at hr
    cases hr

theorem drive_consumed {s s' : σ} {l : List α} {n : Nat} (h : F.next s l = .consumed n s') :
    F.drive s l = F.drive s' (l.drop n) := by
  rw [drive]
  split
  · rename_i hr
    rw [h] at hr
    cases hr
  · rename_i hr
    rw [h] at hr
    cases hr
  · rename_i hr
    rw [h] at hr
    cases hr
    rfl

/-- Input that comes later is decoded as if it had come at once. -/
theorem drive_append (s : σ) (l m : List α) : F.drive s (l ++ m) = F.feed (F.drive s l) m := by
  induction hn : l.length using Nat.strongRecOn generalizing s l with
  | ind k ih =>
    cases h : F.next s l with
    | more => rw [drive_more h, feed]
    | refused s' =>
      rw [drive_refused h, feed, drive_refused]
      rw [F.stable s l m (by rw [h]; simp), h]
    | consumed n s' =>
      obtain ⟨hpos, hle⟩ := F.shrinks s l n s' h
      have hstable : F.next s (l ++ m) = .consumed n s' := by
        rw [F.stable s l m (by rw [h]; simp), h]
      rw [drive_consumed h, drive_consumed hstable, List.drop_append_of_le_length hle]
      exact ih (l.drop n).length (by rw [List.length_drop]; omega) s' (l.drop n) rfl

theorem feed_append (d : Decoded σ α) (l m : List α) : F.feed (F.feed d l) m = F.feed d (l ++ m) := by
  cases d with
  | waiting s rest =>
    change F.feed (F.drive s (rest ++ l)) m = F.drive s (rest ++ (l ++ m))
    rw [← List.append_assoc]
    exact (drive_append s (rest ++ l) m).symm
  | refused s => rfl

/-- What a decoder waits with is not complete. -/
theorem drive_waiting {s s' : σ} {l rest : List α} (h : F.drive s l = .waiting s' rest) :
    F.next s' rest = .more := by
  induction hn : l.length using Nat.strongRecOn generalizing s l with
  | ind k ih =>
    cases hv : F.next s l with
    | more =>
      rw [drive_more hv] at h
      cases h
      exact hv
    | refused s1 =>
      rw [drive_refused hv] at h
      cases h
    | consumed n s1 =>
      obtain ⟨hpos, hle⟩ := F.shrinks s l n s1 hv
      rw [drive_consumed hv] at h
      exact ih (l.drop n).length (by rw [List.length_drop]; omega) h rfl

/-- **Chunking.** The pieces are decoded as their concatenation. -/
theorem feed_pieces (pieces : List (List α)) : ∀ d : Decoded σ α,
    F.feed (pieces.foldl F.feed d) [] = F.feed d pieces.flatten := by
  induction pieces with
  | nil => exact fun d => rfl
  | cons l pieces ih =>
    intro d
    rw [List.foldl_cons, ih, feed_append, List.flatten_cons]

/-- A decoder that is fed nothing stays where it is. -/
theorem feed_nil {d : Decoded σ α} (h : ∀ s rest, d = .waiting s rest → F.next s rest = .more) :
    F.feed d [] = d := by
  cases d with
  | waiting s rest =>
    simp only [feed, List.append_nil]
    exact drive_more (h s rest rfl)
  | refused s => rfl

theorem feed_waiting {d : Decoded σ α} {l : List α} (s : σ) (rest : List α)
    (h : F.feed d l = .waiting s rest) : F.next s rest = .more := by
  cases d with
  | waiting s0 rest0 => exact drive_waiting h
  | refused s0 => cases h

theorem foldl_waiting (pieces : List (List α)) : ∀ {d : Decoded σ α},
    (∀ s rest, d = .waiting s rest → F.next s rest = .more) → ∀ s rest,
      pieces.foldl F.feed d = .waiting s rest → F.next s rest = .more := by
  induction pieces with
  | nil => exact fun h => h
  | cons l pieces ih =>
    intro d _
    exact ih fun s rest hd => feed_waiting s rest hd

/-- From a decoder that waits, the pieces lead where their concatenation does. -/
theorem foldl_feed (pieces : List (List α)) {d : Decoded σ α}
    (h : ∀ s rest, d = .waiting s rest → F.next s rest = .more) :
    pieces.foldl F.feed d = F.feed d pieces.flatten := by
  rw [← feed_pieces]
  exact (feed_nil (foldl_waiting pieces h)).symm

end Framing

end AnboxReboxed.Lib
