import Mathlib.Data.List.Basic
import Mathlib.Data.List.Perm.Basic

/-!
# Placing Blocks in an Image

Blocks with addresses are written one after the other, in the order of the
list, with a filling between the end of one and the address of the next. A
block whose address lies before that end is refused. Nothing here is specific
to one system.

Whatever the order the blocks come in, an image that is not refused holds each
of them at its address, no two overlap, and everything else is filling.

## Main definitions

* `place`: The image from a position on.
* `Holds`: A block lies in the image.

## Theorems

* `place_holds`: Every block lies at its address.
* `place_apart`: The blocks come one after the other.
* `place_blank`: Outside the blocks there is only filling.
-/

namespace Placement

variable {α : Type*}

/-- A block and its address. -/
structure Block (α : Type*) where
  start : Nat
  data : List α

namespace Block

/-- The address just past the block. -/
def stop (b : Block α) : Nat := b.start + b.data.length

/-- The block covers the address. -/
def Covers (b : Block α) (i : Nat) : Prop := b.start ≤ i ∧ i < b.stop

/-- One of two blocks ends where the other has not begun. -/
def Apart (b c : Block α) : Prop := b.stop ≤ c.start ∨ c.stop ≤ b.start

theorem Apart.symm {b c : Block α} (h : b.Apart c) : c.Apart b := Or.symm h

end Block

/-- The image from position `current` on. -/
def place (fill : α) : Nat → List (Block α) → Option (List α)
  | _, [] => some []
  | current, b :: bs =>
    if b.start < current then none
    else
      (place fill b.stop bs).map fun rest =>
        List.replicate (b.start - current) fill ++ (b.data ++ rest)

/-- The block lies at its address in the image. -/
def Holds (b : Block α) (image : List α) : Prop :=
  b.stop ≤ image.length ∧ (image.drop b.start).take b.data.length = b.data

theorem place_cons (fill : α) (current : Nat) (b : Block α) (bs : List (Block α))
    (image : List α) (h : place fill current (b :: bs) = some image) :
    current ≤ b.start ∧ ∃ rest, place fill b.stop bs = some rest ∧
      image = List.replicate (b.start - current) fill ++ (b.data ++ rest) := by
  unfold place at h
  by_cases hlt : b.start < current
  · rw [if_pos hlt] at h
    exact absurd h (by simp)
  · rw [if_neg hlt, Option.map_eq_some_iff] at h
    rcases h with ⟨rest, hrest, himage⟩
    exact ⟨by omega, rest, hrest, himage.symm⟩

/-- Every block comes after the position that placing starts from. -/
theorem place_after (fill : α) (current : Nat) (bs : List (Block α)) (image : List α)
    (h : place fill current bs = some image) : ∀ b ∈ bs, current ≤ b.start := by
  induction bs generalizing current image with
  | nil => exact fun b hb => absurd hb (by simp)
  | cons b bs ih =>
      rcases place_cons fill current b bs image h with ⟨hle, rest, hrest, -⟩
      intro c hc
      rcases List.mem_cons.1 hc with rfl | hc
      · exact hle
      · have hstop := ih b.stop rest hrest c hc
        unfold Block.stop at hstop
        omega

/-- The blocks come one after the other. -/
theorem place_apart (fill : α) (current : Nat) (bs : List (Block α)) (image : List α)
    (h : place fill current bs = some image) : bs.Pairwise Block.Apart := by
  induction bs generalizing current image with
  | nil => exact List.Pairwise.nil
  | cons b bs ih =>
      rcases place_cons fill current b bs image h with ⟨-, rest, hrest, -⟩
      exact List.pairwise_cons.2
        ⟨fun c hc => Or.inl (place_after fill b.stop bs rest hrest c hc), ih b.stop rest hrest⟩

/-- The image seen from the position placing starts from: every block lies at
its address, and outside the blocks there is only filling. -/
theorem place_spec (fill : α) (current : Nat) (bs : List (Block α)) (image : List α)
    (h : place fill current bs = some image) :
    (∀ b ∈ bs, b.stop ≤ current + image.length ∧
      (image.drop (b.start - current)).take b.data.length = b.data) ∧
    ∀ i, i < image.length → (∀ b ∈ bs, ¬ b.Covers (current + i)) → image[i]? = some fill := by
  -- induction on the blocks, of which each starts behind the one before it
  induction bs generalizing current image with
  | nil =>
      cases h
      exact ⟨fun b hb => absurd hb (by simp), fun i hi => absurd hi (by simp)⟩
  | cons b bs ih =>
      have hafter := place_after fill current (b :: bs) image h
      rcases place_cons fill current b bs image h with ⟨hle, rest, hrest, rfl⟩
      have hlater := place_after fill b.stop bs rest hrest
      rcases ih b.stop rest hrest with ⟨hholds, hblank⟩
      have hlength : (List.replicate (b.start - current) fill ++ (b.data ++ rest)).length =
          b.start - current + (b.data.length + rest.length) := by
        simp only [List.length_append, List.length_replicate]
      -- what a block covers is its data, everything else is filler
      refine ⟨fun c hc => ?_, fun i hi hcover => ?_⟩
      · rw [hlength]
        rcases List.mem_cons.1 hc with rfl | hc
        · refine ⟨by unfold Block.stop; omega, ?_⟩
          rw [List.drop_append_of_le_length (by simp), List.drop_eq_nil_of_le (by simp),
            List.nil_append, List.take_left]
        · rcases hholds c hc with ⟨hend, hdata⟩
          have hstart := hlater c hc
          unfold Block.stop at hend hstart ⊢
          refine ⟨by omega, ?_⟩
          -- the block lies in the rest, past the filling and past the first block
          have hsplit : c.start - current =
              (b.start - current) + (b.data.length + (c.start - (b.start + b.data.length))) := by
            omega
          have hskip : (List.replicate (b.start - current) fill ++ (b.data ++ rest)).drop
              (b.start - current) = b.data ++ rest := by
            rw [List.drop_append_of_le_length (by simp), List.drop_eq_nil_of_le (by simp),
              List.nil_append]
          rw [hsplit, ← List.drop_drop, hskip, ← List.drop_drop, List.drop_left]
          exact hdata
      · have hfirst : ¬ b.Covers (current + i) := hcover b (List.mem_cons_self ..)
        rw [hlength] at hi
        unfold Block.Covers Block.stop at hfirst
        by_cases hgap : i < b.start - current
        · rw [List.getElem?_append_left (by simpa using hgap), List.getElem?_replicate,
            if_pos hgap]
        · rw [List.getElem?_append_right (by simpa using hgap), List.length_replicate,
            List.getElem?_append_right (by omega)]
          refine hblank _ (by omega) fun c hc => ?_
          have hrest := hcover c (List.mem_cons_of_mem b hc)
          have hpos : b.stop + (i - (b.start - current) - b.data.length) = current + i := by
            unfold Block.stop
            omega
          rwa [hpos]

/-- In an image placed from its beginning every block lies at its address. -/
theorem place_holds (fill : α) (bs : List (Block α)) (image : List α)
    (h : place fill 0 bs = some image) : ∀ b ∈ bs, Holds b image := by
  intro b hb
  have hspec := (place_spec fill 0 bs image h).1 b hb
  rwa [Nat.zero_add, Nat.sub_zero] at hspec

/-- Outside the blocks there is only filling. -/
theorem place_blank (fill : α) (bs : List (Block α)) (image : List α)
    (h : place fill 0 bs = some image) (i : Nat) (hi : i < image.length)
    (hcover : ∀ b ∈ bs, ¬ b.Covers i) : image[i]? = some fill :=
  (place_spec fill 0 bs image h).2 i hi (by simpa only [Nat.zero_add] using hcover)

end Placement
