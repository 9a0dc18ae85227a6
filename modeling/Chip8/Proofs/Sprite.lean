import Mathlib.Algebra.BigOperators.Fin
import Mathlib.Data.Fintype.BigOperators
import Mathlib.Data.Nat.ModEq
import Chip8.Proofs.Display

/-!
Sprites, pixel by pixel. Each bit of a sprite covers one pixel or is dropped (`Sprite.covered?`). The mask of a
sprite row shows the bits of the row (`Screen.getMsbD_mask_of_lands`), the picture of all rows shows the last one
that covers a pixel (`Sprite.picture_of_last`), and `Screen.paint_sprite` states what drawing does to every pixel,
to the mark, to the number of set pixels, and what it answers.
-/
namespace Chip8

/-- A column and a row of the screen. -/
abbrev Pixel := Fin 64 × Fin 32

namespace Frame

def shows (f : Frame) (p : Pixel) : Bool := f.pixel p.1 p.2

theorem shows_add (f g : Frame) (p : Pixel) : (f.add g).shows p = (f.shows p ^^ g.shows p) := pixel_add f g p.1 p.2

theorem countP_range (test : Nat → Bool) (n : Nat) : (List.range n).countP test = ∑ i : Fin n, (test i).toNat := by
  induction n with
  | zero => rfl
  | succ n ih =>
    rw [List.range_succ, List.countP_append, ih, Fin.sum_univ_castSucc]
    cases set : test n <;> simp [set]

theorem lit_eq_sum (f : Frame) : f.lit = ∑ p : Pixel, (f.shows p).toNat := by
  have row (y : Fin 32) : ((List.range 64).map fun x => f.pixel x y).countP id = ∑ x : Fin 64, (f.pixel x y).toNat := by
    rw [List.countP_map]
    exact countP_range (fun x => f.pixel x y) 64
  rw [lit, pixelList, List.countP_flatMap, Fintype.sum_prod_type_right, Fin.sum_univ_def]
  simp only [Function.comp_def, row]
  rfl

theorem sum_toNat (test : Pixel → Bool) :
    ∑ p, (test p).toNat = (Finset.univ.filter fun p => test p = true).card := by
  rw [Finset.card_filter]
  refine Finset.sum_congr rfl fun p _ => ?_
  cases test p <;> rfl

theorem pixel_set (f : Frame) (k : Fin 32) (m : Row) (i : Nat) (j : Fin 32) :
    pixel (f.set k m k.isLt) i j = if k = j then m.getMsbD i else f.pixel i j := by
  simp only [pixel, Fin.getElem_fin, Vector.getElem_set, Fin.ext_iff]
  split <;> rfl

/-- What is added is set, except where it meets what was set. -/
theorem lit_add (f g : Frame) : (f.add g).lit + 2 * (Finset.univ.filter fun p => g.shows p && f.shows p).card =
    f.lit + (Finset.univ.filter fun p => g.shows p = true).card := by
  rw [lit_eq_sum, lit_eq_sum, ← sum_toNat, ← sum_toNat, Finset.mul_sum, ← Finset.sum_add_distrib,
    ← Finset.sum_add_distrib]
  refine Finset.sum_congr rfl fun p _ => ?_
  rw [shows_add]
  cases f.shows p <;> cases g.shows p <;> rfl

end Frame

namespace Screen

/-! ### One row -/

/-- What lies `c` further on than `x` lands on `i`, on an axis of the screen. -/
def Lands (wrap : Bool) (size x c i : Nat) : Prop := if wrap then (x + c) % size = i else x + c = i

/-- Two things less than a screen apart do not land in one place. -/
theorem Lands.unique {wrap : Bool} {size x c d i : Nat} (first : Lands wrap size x c i) (second : Lands wrap size x d i)
    (inside : wrap = true → c < size ∧ d < size) : c = d := by
  cases wrap with
  | false => exact Nat.add_left_cancel (first.trans second.symm)
  | true =>
    obtain ⟨left, right⟩ := inside rfl
    exact (Nat.ModEq.add_left_cancel' x (first.trans second.symm)).eq_of_lt_of_lt left right

theorem rowAt?_eq_some_iff {wrap : Bool} {y r : Nat} {j : Fin 32} : rowAt? wrap y r = some j ↔ Lands wrap 32 y r j := by
  unfold rowAt? Lands
  cases wrap with
  | true => simp [Fin.ext_iff]
  | false =>
    by_cases inside : y + r < 32
    · simp [inside, Fin.ext_iff]
    · have row := j.isLt
      simp [inside]
      omega

theorem getMsbD_left (b : Byte) (k : Nat) :
    (b.setWidth 64 <<< 56 : Row).getMsbD k = (decide (k < 8) && b.getLsbD (7 - k)) := by
  rw [BitVec.getMsbD_shiftLeft, BitVec.getMsbD_setWidth, BitVec.getMsbD_eq_getLsbD]
  simp

theorem getMsbD_mask (wrap : Bool) {x : Nat} (inside : x < 64) (b : Byte) (i : Fin 64) :
    (mask wrap x b).getMsbD i = ((wrap || decide (x ≤ i)) &&
      (decide ((i + 64 - x) % 64 < 8) && b.getLsbD (7 - (i + 64 - x) % 64))) := by
  have column := i.isLt
  cases wrap with
  | false =>
    rw [mask, if_neg Bool.false_ne_true, BitVec.getMsbD_ushiftRight, getMsbD_left]
    by_cases before : i < x
    · simp [before]
    · have place : (i + 64 - x) % 64 = i - x := by omega
      simp [before, Nat.le_of_not_lt before, place]
  | true =>
    rw [mask, if_pos rfl, BitVec.getMsbD_rotateRight_of_lt inside, Nat.mod_eq_of_lt inside]
    by_cases before : i < x
    · have place : (64 + i - x) % 64 = (i + 64 - x) % 64 := by omega
      simp only [before, column, if_true, decide_true, Bool.true_and, Bool.true_or, getMsbD_left, place]
    · have place : (i + 64 - x) % 64 = i - x := by omega
      simp only [before, column, if_false, decide_true, Bool.true_and, Bool.true_or, getMsbD_left, place]

theorem getMsbD_mask_of_lands {wrap : Bool} {x : Nat} (inside : x < 64) (b : Byte) {c : Fin 8} {i : Fin 64}
    (lands : Lands wrap 64 x c i) : (mask wrap x b).getMsbD i = b.getLsbD (7 - c) := by
  have column := i.isLt
  have narrow := c.isLt
  rw [getMsbD_mask wrap inside]
  cases wrap with
  | false =>
    have lands : x + c = i := lands
    have place : (i + 64 - x) % 64 = c := by omega
    have before : x ≤ i := by omega
    simp [place, before]
  | true =>
    have lands : (x + c) % 64 = i := lands
    have place : (i + 64 - x) % 64 = c := by omega
    simp [place]

theorem lands_of_getMsbD_mask {wrap : Bool} {x : Nat} (inside : x < 64) {b : Byte} {i : Fin 64}
    (shown : (mask wrap x b).getMsbD i = true) : ∃ c : Fin 8, Lands wrap 64 x c i ∧ b.getLsbD (7 - c) = true := by
  have column := i.isLt
  rw [getMsbD_mask wrap inside] at shown
  simp only [Bool.and_eq_true, Bool.or_eq_true, decide_eq_true_eq] at shown
  obtain ⟨visible, narrow, set⟩ := shown
  refine ⟨⟨(i + 64 - x) % 64, narrow⟩, ?_, set⟩
  cases wrap with
  | false =>
    obtain wrapped | before := visible
    · cases wrapped
    · show x + (i + 64 - x) % 64 = i
      omega
  | true =>
    show (x + (i + 64 - x) % 64) % 64 = i
    omega

theorem row_ne_zero_iff (m : Row) : (m != 0) = true ↔ ∃ i : Fin 64, m.getMsbD i = true := by
  rw [bne_iff_ne, ne_eq, not_iff_comm]
  constructor
  · intro none
    refine BitVec.eq_of_getMsbD_eq fun i inside => ?_
    simpa using fun set => none ⟨⟨i, inside⟩, set⟩
  · rintro rfl ⟨i, set⟩
    simp at set

/-! ### The rows together -/

theorem stamp_concat (placed : List (Fin 32 × Row)) (j : Fin 32) (m : Row) :
    stamp (placed ++ [(j, m)]) = (stamp placed).set j m j.isLt := by
  simp only [stamp, List.foldl_append, List.foldl_cons, List.foldl_nil]

theorem placements_concat (wrap : Bool) (x y : Nat) (rows : List Byte) (b : Byte) :
    placements wrap x y (rows ++ [b]) =
      placements wrap x y rows ++ ((rowAt? wrap y rows.length).map fun j => (j, mask wrap x b)).toList := by
  unfold placements
  rw [List.zipIdx_append, List.filterMap_append]
  cases falls : rowAt? wrap y rows.length <;> simp [falls]

theorem mem_placements {wrap : Bool} {x y : Nat} {rows : List Byte} {j : Fin 32} {m : Row} :
    (j, m) ∈ placements wrap x y rows ↔
      ∃ r : Fin rows.length, rowAt? wrap y r = some j ∧ mask wrap x rows[r] = m := by
  simp only [placements, List.mem_filterMap, Option.map_eq_some_iff, Prod.mk.injEq]
  constructor
  · rintro ⟨⟨b, r⟩, place, k, falls, rfl, rfl⟩
    obtain ⟨inside, found⟩ := List.getElem?_eq_some_iff.1 (List.mem_zipIdx_iff_getElem?.1 place)
    exact ⟨⟨r, inside⟩, falls, congrArg (mask wrap x) found⟩
  · rintro ⟨r, falls, rfl⟩
    exact ⟨(rows[r], r), List.mem_zipIdx_iff_getElem?.2 (List.getElem?_eq_getElem r.isLt), j, falls, rfl, rfl⟩

theorem pixel_stamp_concat (wrap : Bool) (x y : Nat) (rows : List Byte) (b : Byte) (i : Nat) (j : Fin 32) :
    (stamp (placements wrap x y (rows ++ [b]))).pixel i j = if rowAt? wrap y rows.length = some j
      then (mask wrap x b).getMsbD i else (stamp (placements wrap x y rows)).pixel i j := by
  rw [placements_concat]
  cases falls : rowAt? wrap y rows.length with
  | none => simp
  | some k =>
    rw [Option.map_some, Option.toList_some, stamp_concat, Frame.pixel_set]
    simp only [Option.some.injEq]

theorem pixel_stamp_of_last {wrap : Bool} {x y : Nat} {rows : List Byte} {r : Nat} (inside : r < rows.length)
    {j : Fin 32} (falls : rowAt? wrap y r = some j)
    (last : ∀ k < rows.length, rowAt? wrap y k = some j → k ≤ r) (i : Nat) :
    (stamp (placements wrap x y rows)).pixel i j = (mask wrap x rows[r]).getMsbD i := by
  -- From the end of the sprite: its last row is painted over the others.
  induction rows using List.reverseRecOn with
  | nil => cases inside
  | append_singleton rows b ih =>
    rw [pixel_stamp_concat]
    rw [List.length_append, List.length_singleton] at inside last
    rcases Nat.lt_succ_iff_lt_or_eq.1 inside with before | rfl
    · have covered : rowAt? wrap y rows.length ≠ some j := by
        intro again
        exact Nat.not_le.2 before (last rows.length (Nat.lt_succ_self _) again)
      rw [if_neg covered, List.getElem_append_left before]
      exact ih before fun k below => last k (Nat.lt_succ_of_lt below)
    · rw [if_pos falls, List.getElem_concat_length rfl]

theorem exists_of_pixel_stamp {wrap : Bool} {x y : Nat} {rows : List Byte} {i : Nat} {j : Fin 32}
    (shown : (stamp (placements wrap x y rows)).pixel i j = true) :
    ∃ r, ∃ inside : r < rows.length, rowAt? wrap y r = some j ∧ (mask wrap x rows[r]).getMsbD i = true := by
  induction rows using List.reverseRecOn with
  | nil => simp [placements, stamp] at shown
  | append_singleton rows b ih =>
    rw [pixel_stamp_concat] at shown
    by_cases falls : rowAt? wrap y rows.length = some j
    · rw [if_pos falls] at shown
      exact ⟨rows.length, by simp, falls, by rwa [List.getElem_concat_length rfl]⟩
    · rw [if_neg falls] at shown
      obtain ⟨r, inside, before, set⟩ := ih shown
      exact ⟨r, by simp; omega, before, by rwa [List.getElem_append_left inside]⟩

end Screen

/-- A sprite, where it is drawn, and whether the screen wraps. -/
structure Sprite where
  wrap : Bool
  x : Int
  y : Int
  rows : List Byte

namespace Sprite

/-- A row of the sprite and a place in it, from the left. -/
abbrev Bit (sp : Sprite) := Fin sp.rows.length × Fin 8

variable (sp : Sprite)

def isSet (b : sp.Bit) : Bool := sp.rows[b.1].getLsbD (7 - b.2)

def left : Nat := (sp.x % 64).toNat
def top : Nat := (sp.y % 32).toNat

/-- The pixel that a bit covers, unless it is dropped. -/
def covered? (b : sp.Bit) : Option Pixel :=
  if sp.wrap then
    some (⟨(sp.left + b.2) % 64, Nat.mod_lt _ (by decide)⟩, ⟨(sp.top + b.1) % 32, Nat.mod_lt _ (by decide)⟩)
  else if inside : sp.left + b.2 < 64 ∧ sp.top + b.1 < 32 then
    some (⟨sp.left + b.2, inside.1⟩, ⟨sp.top + b.1, inside.2⟩)
  else none

/-- The set bits that cover a pixel with the property. -/
def setBits (Q : Pixel → Bool) : Finset sp.Bit := Finset.univ.filter fun b => sp.isSet b && (sp.covered? b).any Q

/-- No two rows fall on the same row of the screen. -/
def Apart : Prop := ∀ a b p q, sp.covered? a = some p → sp.covered? b = some q → p.2 = q.2 → a.1 = b.1

/-- The sprite as it appears on a blank screen. -/
def picture : Frame := Screen.stamp (Screen.placements sp.wrap sp.left sp.top sp.rows)

variable {sp}

theorem left_lt : sp.left < 64 := by
  unfold left
  omega

theorem covered?_eq_some_iff {b : sp.Bit} {p : Pixel} : sp.covered? b = some p ↔
    Screen.Lands sp.wrap 64 sp.left b.2 p.1 ∧ Screen.Lands sp.wrap 32 sp.top b.1 p.2 := by
  obtain ⟨i, j⟩ := p
  unfold covered? Screen.Lands
  cases sp.wrap with
  | true => simp [Fin.ext_iff]
  | false =>
    by_cases inside : sp.left + b.2 < 64 ∧ sp.top + b.1 < 32
    · simp [inside, Fin.ext_iff]
    · have column := i.isLt
      have row := j.isLt
      simp [inside]
      omega

theorem mem_setBits {Q : Pixel → Bool} {b : sp.Bit} :
    b ∈ sp.setBits Q ↔ sp.isSet b = true ∧ ∃ p, sp.covered? b = some p ∧ Q p = true := by
  simp [setBits, Option.any_eq_true]

theorem mask_of_covered {b : sp.Bit} {p : Pixel} (covers : sp.covered? b = some p) :
    (Screen.mask sp.wrap sp.left sp.rows[b.1]).getMsbD p.1 = sp.isSet b :=
  Screen.getMsbD_mask_of_lands left_lt _ (covered?_eq_some_iff.1 covers).1

theorem covered_of_mask {r : Fin sp.rows.length} {p : Pixel} (falls : Screen.rowAt? sp.wrap sp.top r = some p.2)
    (shown : (Screen.mask sp.wrap sp.left sp.rows[r]).getMsbD p.1 = true) :
    ∃ c, sp.covered? (r, c) = some p ∧ sp.isSet (r, c) = true := by
  obtain ⟨c, lands, set⟩ := Screen.lands_of_getMsbD_mask left_lt shown
  exact ⟨c, covered?_eq_some_iff.2 ⟨lands, Screen.rowAt?_eq_some_iff.1 falls⟩, set⟩

/-- Where several rows cover a pixel the last of them is seen. -/
theorem picture_of_last {b : sp.Bit} {p : Pixel} (covers : sp.covered? b = some p)
    (last : ∀ a, sp.covered? a = some p → a.1 ≤ b.1) : sp.picture.shows p = sp.isSet b := by
  obtain ⟨lands, falls⟩ := covered?_eq_some_iff.1 covers
  rw [← mask_of_covered covers]
  refine Screen.pixel_stamp_of_last b.1.isLt (Screen.rowAt?_eq_some_iff.2 falls) (fun k inside again => ?_) p.1
  exact last (⟨k, inside⟩, b.2) (covered?_eq_some_iff.2 ⟨lands, Screen.rowAt?_eq_some_iff.1 again⟩)

theorem covered_of_picture {p : Pixel} (shown : sp.picture.shows p = true) :
    ∃ b, sp.covered? b = some p ∧ sp.isSet b = true := by
  obtain ⟨r, inside, falls, set⟩ := Screen.exists_of_pixel_stamp shown
  obtain ⟨c, covers, isSet⟩ := covered_of_mask (r := ⟨r, inside⟩) falls set
  exact ⟨(⟨r, inside⟩, c), covers, isSet⟩

/-- A test of the masks that looks for a set pixel looks for a set bit. -/
theorem any_placements (sp : Sprite) (test : Fin 32 → Row → Bool) (Q : Pixel → Bool)
    (meets : ∀ j m, test j m = true ↔ ∃ i : Fin 64, m.getMsbD i = true ∧ Q (i, j) = true) :
    ((Screen.placements sp.wrap sp.left sp.top sp.rows).any fun p => test p.1 p.2) = true ↔
      (sp.setBits Q).Nonempty := by
  rw [List.any_eq_true]
  constructor
  · rintro ⟨⟨j, m⟩, placed, found⟩
    obtain ⟨r, falls, rfl⟩ := Screen.mem_placements.1 placed
    obtain ⟨i, shown, holds⟩ := (meets j _).1 found
    obtain ⟨c, covers, set⟩ := covered_of_mask (p := (i, j)) falls shown
    exact ⟨(r, c), mem_setBits.2 ⟨set, (i, j), covers, holds⟩⟩
  · rintro ⟨b, member⟩
    obtain ⟨set, p, covers, holds⟩ := mem_setBits.1 member
    have falls := Screen.rowAt?_eq_some_iff.2 (covered?_eq_some_iff.1 covers).2
    rw [← mask_of_covered covers] at set
    exact ⟨_, Screen.mem_placements.2 ⟨b.1, falls, rfl⟩, (meets _ _).2 ⟨p.1, set, holds⟩⟩

/-! ### Rows apart -/

theorem column_of_covered {a b : sp.Bit} {p : Pixel} (covers : sp.covered? a = some p)
    (again : sp.covered? b = some p) : a.2 = b.2 := by
  have narrow := a.2.isLt
  have narrow' := b.2.isLt
  obtain ⟨lands, _⟩ := covered?_eq_some_iff.1 covers
  obtain ⟨lands', _⟩ := covered?_eq_some_iff.1 again
  exact Fin.ext (lands.unique lands' fun _ => by omega)

theorem Apart.injective (apart : sp.Apart) {a b : sp.Bit} {p : Pixel} (covers : sp.covered? a = some p)
    (again : sp.covered? b = some p) : a = b :=
  Prod.ext (apart a b p p covers again rfl) (column_of_covered covers again)

theorem Apart.picture (apart : sp.Apart) {b : sp.Bit} {p : Pixel} (covers : sp.covered? b = some p) :
    sp.picture.shows p = sp.isSet b := by
  refine picture_of_last covers fun a again => ?_
  rw [apart.injective again covers]

theorem Apart.card_setBits (apart : sp.Apart) (Q : Pixel → Bool) :
    (Finset.univ.filter fun p => sp.picture.shows p && Q p).card = (sp.setBits Q).card := by
  -- The pixel that a bit covers, which tells the bit; those dropped are not among the bits counted.
  let place (b : sp.Bit) : Pixel := (sp.covered? b).getD (0, 0)
  have injective : Set.InjOn place (sp.setBits Q) := by
    intro a member b member' same
    obtain ⟨_, p, covers, _⟩ := mem_setBits.1 member
    obtain ⟨_, q, covers', _⟩ := mem_setBits.1 member'
    simp only [place, covers, covers', Option.getD_some] at same
    rw [← same] at covers'
    exact apart.injective covers covers'
  have image : (sp.setBits Q).image place = Finset.univ.filter fun p => sp.picture.shows p && Q p := by
    ext p
    simp only [Finset.mem_image, Finset.mem_filter, Finset.mem_univ, true_and, Bool.and_eq_true]
    constructor
    · rintro ⟨b, member, rfl⟩
      obtain ⟨set, p, covers, holds⟩ := mem_setBits.1 member
      simp only [place, covers, Option.getD_some]
      exact ⟨(apart.picture covers).trans set, holds⟩
    · rintro ⟨shown, holds⟩
      obtain ⟨b, covers, set⟩ := covered_of_picture shown
      exact ⟨b, mem_setBits.2 ⟨set, p, covers, holds⟩, by simp only [place, covers, Option.getD_some]⟩
  rw [← image, Finset.card_image_of_injOn injective]

/-- Only a sprite taller than a screen that wraps meets itself. -/
theorem apart_of_length_le (short : sp.wrap = true → sp.rows.length ≤ 32) : sp.Apart := by
  intro a b p q covers covers' same
  obtain ⟨_, lands⟩ := covered?_eq_some_iff.1 covers
  obtain ⟨_, lands'⟩ := covered?_eq_some_iff.1 covers'
  rw [← same] at lands'
  refine Fin.ext (lands.unique lands' fun wraps => ?_)
  exact ⟨a.1.isLt.trans_le (short wraps), b.1.isLt.trans_le (short wraps)⟩

end Sprite

namespace Screen

theorem and_ne_zero_iff (a m : Row) : (a &&& m != 0) = true ↔
    ∃ i : Fin 64, m.getMsbD i = true ∧ a.getMsbD i = true := by
  simp only [row_ne_zero_iff, BitVec.getMsbD_and, Bool.and_eq_true, and_comm]

/-- Drawing leaves every pixel as it was that no bit of the sprite covers, and flips the others by the last bit that
    covers them. It answers whether a set bit covers a set pixel, and marks the screen if a set bit covers any. Where
    no two rows of the sprite meet, each set bit sets a pixel or, if it was set, resets it. -/
theorem paint_sprite (s : Screen) (sp : Sprite) :
    let after := s.paint sp.wrap sp.x sp.y sp.rows
    (∀ p, (∀ b, sp.covered? b ≠ some p) → after.1.pixels.shows p = s.pixels.shows p) ∧
    (∀ b p, sp.covered? b = some p → (∀ a, sp.covered? a = some p → a.1 ≤ b.1) →
      after.1.pixels.shows p = (s.pixels.shows p ^^ sp.isSet b)) ∧
    (after.2 = true ↔ (sp.setBits s.pixels.shows).Nonempty) ∧
    (after.1.dirty = true ↔ s.dirty = true ∨ (sp.setBits fun _ => true).Nonempty) ∧
    (sp.Apart → (after.1.pixels.lit : Int) - s.pixels.lit =
      (sp.setBits fun _ => true).card - 2 * (sp.setBits s.pixels.shows).card) := by
  have pixels : (s.paint sp.wrap sp.x sp.y sp.rows).1.pixels = s.pixels.add sp.picture := rfl
  intro after
  refine ⟨?_, ?_, ?_, ?_, ?_⟩
  · intro p uncovered
    have unseen : sp.picture.shows p = false := by
      rw [← Bool.not_eq_true]
      intro shown
      obtain ⟨b, covers, _⟩ := Sprite.covered_of_picture shown
      exact uncovered b covers
    rw [pixels, Frame.shows_add, unseen, Bool.xor_false]
  · intro b p covers last
    rw [pixels, Frame.shows_add, Sprite.picture_of_last covers last]
  · have meets (j : Fin 32) (m : Row) := and_ne_zero_iff s.pixels[j] m
    exact sp.any_placements (fun j m => s.pixels[j] &&& m != 0) s.pixels.shows meets
  · have meets (m : Row) : (m != 0) = true ↔ ∃ i : Fin 64, m.getMsbD i = true ∧ true = true := by
      simp only [row_ne_zero_iff, and_true]
    rw [← sp.any_placements (fun _ m => m != 0) (fun _ => true) fun _ => meets]
    exact Bool.or_eq_true_iff
  · intro apart
    have count := Frame.lit_add s.pixels sp.picture
    have all := apart.card_setBits fun _ => true
    simp only [Bool.and_true] at all
    rw [apart.card_setBits, all, ← pixels] at count
    show ((s.paint sp.wrap sp.x sp.y sp.rows).1.pixels.lit : Int) - _ = _
    omega

theorem paint_sprite_corner : (initial.paint true 62 31 [0xFF, 0xFF]).1.pixels.lit = 16 := by
  obtain ⟨_, _, _, _, count⟩ := initial.paint_sprite ⟨true, 62, 31, [0xFF, 0xFF]⟩
  have lit := count (Sprite.apart_of_length_le fun _ => by decide)
  have dark : initial.pixels.lit = 0 := by decide +kernel
  have shown : ((Sprite.mk true 62 31 [0xFF, 0xFF]).setBits fun _ => true).card = 16 := by decide +kernel
  have met : ((Sprite.mk true 62 31 [0xFF, 0xFF]).setBits initial.pixels.shows).card = 0 := by decide +kernel
  rw [shown, met, dark] at lit
  have sixteen : ((initial.paint true 62 31 [0xFF, 0xFF]).1.pixels.lit : Int) - 0 = 16 := lit
  omega

end Screen

end Chip8
