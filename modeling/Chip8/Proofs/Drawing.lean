import Mathlib.Data.List.Induction
import Mathlib.Data.Nat.Bits
import Chip8.Proofs.Sprite

/-!
Drawings one after the other. Each row of a sprite is added to the screen as it was before the sprite, and the last row
that falls in a place is kept (`Screen.pixels_paint_assigned`); so a sprite flips the same pixels whatever is on the
screen. In the end a pixel is flipped as often as there are sprites that show it (`Screen.shows_paintAll`), in whatever
order they came, and a sprite drawn twice in the same place is gone (`Screen.paintings_commute`). The second time it
meets the pixels that it set the first time.
-/
namespace Chip8

namespace Frame

/-- Frames with the same pixels are the same. -/
theorem ext_shows {f g : Frame} (same : ∀ p, f.shows p = g.shows p) : f = g := by
  apply Vector.ext
  intro y row
  refine BitVec.eq_of_getMsbD_eq fun x column => ?_
  exact same (⟨x, column⟩, ⟨y, row⟩)

/-- A row of what is added may be added on its own. -/
theorem add_set (f g : Frame) (j : Fin 32) (m : Row) :
    f.add (g.set j m j.isLt) = (f.add g).set j (f.get j ^^^ m) j.isLt := by
  apply Vector.ext
  intro y row
  simp only [add, Vector.getElem_zipWith, Vector.getElem_set]
  split
  next same => subst same; rfl
  next => rfl

end Frame

namespace Screen

/-- The screen after the sprites were drawn, one after the other. -/
def paintAll (s : Screen) (sprites : List Sprite) : Screen :=
  sprites.foldl (fun s sp => (s.paint sp.wrap sp.x sp.y sp.rows).1) s

@[simp] theorem paintAll_nil (s : Screen) : s.paintAll [] = s := rfl
theorem paintAll_cons (s : Screen) (sp : Sprite) (sprites : List Sprite) :
    s.paintAll (sp :: sprites) = (s.paint sp.wrap sp.x sp.y sp.rows).1.paintAll sprites := rfl

/-! ### One sprite -/

theorem pixels_paint (s : Screen) (sp : Sprite) :
    (s.paint sp.wrap sp.x sp.y sp.rows).1.pixels = s.pixels.add sp.picture := rfl

/-- Painting assigns to each row that the sprite falls on, one after the other, what was there before with the mask
    added. Of two assignments to one row the later stays. -/
theorem pixels_paint_assigned (s : Screen) (sp : Sprite) : (s.paint sp.wrap sp.x sp.y sp.rows).1.pixels =
    (placements sp.wrap sp.left sp.top sp.rows).foldl
      (fun f (j, m) => f.set j (s.pixels.get j ^^^ m) j.isLt) s.pixels := by
  rw [pixels_paint, Sprite.picture]
  -- From the last row: the rows before it were added to the same screen.
  induction placements sp.wrap sp.left sp.top sp.rows using List.reverseRecOn with
  | nil => exact s.pixels.add_blank
  | append_singleton placed last ih =>
    obtain ⟨j, m⟩ := last
    rw [stamp_concat, Frame.add_set, ih, List.foldl_concat]

theorem dirty_paint_iff (s : Screen) (sp : Sprite) : (s.paint sp.wrap sp.x sp.y sp.rows).1.dirty = true ↔
    s.dirty = true ∨ (sp.setBits fun _ => true).Nonempty := by
  have meets (m : Row) : (m != 0) = true ↔ ∃ i : Fin 64, m.getMsbD i = true ∧ true = true := by
    simp only [row_ne_zero_iff, and_true]
  rw [← sp.any_placements (fun _ m => m != 0) (fun _ => true) fun _ => meets]
  exact Bool.or_eq_true_iff

/-- A sprite meets the screen if one of its set bits covers a set pixel. -/
theorem met_paint_iff (s : Screen) (sp : Sprite) :
    (s.paint sp.wrap sp.x sp.y sp.rows).2 = true ↔ (sp.setBits s.pixels.shows).Nonempty :=
  sp.any_placements (fun j m => s.pixels[j] &&& m != 0) s.pixels.shows fun j m => and_ne_zero_iff s.pixels[j] m

/-- Of a sprite whose rows do not meet every visible set bit flips its pixel. -/
theorem setBits_paint (s : Screen) {sp : Sprite} (apart : sp.Apart) :
    sp.setBits (s.paint sp.wrap sp.x sp.y sp.rows).1.pixels.shows = sp.setBits fun p => !s.pixels.shows p := by
  ext b
  rw [Sprite.mem_setBits, Sprite.mem_setBits]
  refine and_congr_right fun set => exists_congr fun p => and_congr_right fun covers => ?_
  rw [pixels_paint, Frame.shows_add, apart.picture covers, set, Bool.xor_true]

/-! ### Many sprites -/

theorem shows_paintAll (s : Screen) (sprites : List Sprite) (p : Pixel) : (s.paintAll sprites).pixels.shows p =
    (s.pixels.shows p ^^ (sprites.countP fun sp => sp.picture.shows p).bodd) := by
  induction sprites generalizing s with
  | nil => rw [paintAll_nil, List.countP_nil, Nat.bodd_zero, Bool.xor_false]
  | cons sp sprites ih =>
    rw [paintAll_cons, ih, pixels_paint, Frame.shows_add, List.countP_cons, Nat.bodd_add, Bool.xor_assoc]
    cases sp.picture.shows p with
    | false => rw [if_neg Bool.false_ne_true, Nat.bodd_zero, Bool.false_xor, Bool.xor_false]
    | true => rw [if_pos rfl, Nat.bodd_one, Bool.xor_comm true]

theorem dirty_paintAll_iff (s : Screen) (sprites : List Sprite) : (s.paintAll sprites).dirty = true ↔
    s.dirty = true ∨ ∃ sp ∈ sprites, (sp.setBits fun _ => true).Nonempty := by
  induction sprites generalizing s with
  | nil => simp
  | cons sp sprites ih => rw [paintAll_cons, ih, dirty_paint_iff, or_assoc, List.exists_mem_cons_iff]

/-- Only how often each sprite is drawn matters, not when. -/
theorem paintAll_perm (s : Screen) {sprites order : List Sprite} (perm : sprites.Perm order) :
    s.paintAll order = s.paintAll sprites := by
  have pixels : (s.paintAll order).pixels = (s.paintAll sprites).pixels := by
    apply Frame.ext_shows
    intro p
    rw [shows_paintAll, shows_paintAll, perm.countP_eq]
  have dirty : (s.paintAll order).dirty = (s.paintAll sprites).dirty := by
    rw [Bool.eq_iff_iff, dirty_paintAll_iff, dirty_paintAll_iff]
    simp only [perm.mem_iff]
  exact congrArg₂ Screen.mk pixels dirty

/-- Sprites drawn one after the other, on a screen that wraps or not, any of them past the edges and of any height. A
    pixel is flipped if an odd number of them show it, and the screen is dirty in the end if it was before or if some
    visible bit of them is set; so every order of drawing them leaves the same screen. A sprite assigns to each row that
    it falls on what was there before with its mask added; drawn twice in the same place it leaves the pixels as they
    were. If no two of its rows fall on one row of the screen, the second drawing meets a set pixel exactly if a set bit
    covers one that was not set before the first; so if any visible bit is set, one of the two drawings meets one. -/
theorem paintings_commute (s : Screen) :
    (∀ sprites : List Sprite,
      (∀ p, (s.paintAll sprites).pixels.shows p =
        (s.pixels.shows p ^^ (sprites.countP fun sp => sp.picture.shows p).bodd)) ∧
      ((s.paintAll sprites).dirty = true ↔
        s.dirty = true ∨ ∃ sp ∈ sprites, (sp.setBits fun _ => true).Nonempty) ∧
      ∀ order, sprites.Perm order → s.paintAll order = s.paintAll sprites) ∧
    ∀ sp : Sprite,
      let once := s.paint sp.wrap sp.x sp.y sp.rows
      let twice := once.1.paint sp.wrap sp.x sp.y sp.rows
      once.1.pixels = (placements sp.wrap sp.left sp.top sp.rows).foldl
        (fun f (j, m) => f.set j (s.pixels.get j ^^^ m) j.isLt) s.pixels ∧
      twice.1.pixels = s.pixels ∧
      (sp.Apart →
        (twice.2 = true ↔ (sp.setBits fun p => !s.pixels.shows p).Nonempty) ∧
        ((sp.setBits fun _ => true).Nonempty → once.2 = true ∨ twice.2 = true)) := by
  refine ⟨fun sprites => ⟨s.shows_paintAll sprites, s.dirty_paintAll_iff sprites, fun order => s.paintAll_perm⟩, ?_⟩
  intro sp once twice
  have restored : twice.1.pixels = s.pixels := by
    rw [pixels_paint, pixels_paint]
    exact Frame.add_add_self _ _
  refine ⟨s.pixels_paint_assigned sp, restored, fun apart => ?_⟩
  have met : twice.2 = true ↔ (sp.setBits fun p => !s.pixels.shows p).Nonempty := by
    rw [met_paint_iff, s.setBits_paint apart]
  refine ⟨met, ?_⟩
  rintro ⟨b, member⟩
  obtain ⟨set, p, covers, -⟩ := Sprite.mem_setBits.1 member
  rw [met, met_paint_iff]
  cases shown : s.pixels.shows p with
  | true => exact .inl ⟨b, Sprite.mem_setBits.2 ⟨set, p, covers, shown⟩⟩
  | false => exact .inr ⟨b, Sprite.mem_setBits.2 ⟨set, p, covers, by rw [shown]; rfl⟩⟩

theorem paintings_commute_tall :
    let tall : Sprite := ⟨true, -3, 31, List.replicate 33 0xC3⟩
    let low : Sprite := ⟨false, 60, 30, [0xFF, 0x81, 0x7E]⟩
    initial.paintAll [low, tall, tall] = initial.paintAll [tall, low, tall] ∧
    ((initial.paint low.wrap low.x low.y low.rows).1.paint low.wrap low.x low.y low.rows).2 = true := by
  intro tall low
  obtain ⟨many, single⟩ := initial.paintings_commute
  obtain ⟨_, _, anyOrder⟩ := many [tall, low, tall]
  obtain ⟨_, _, meets⟩ := single low
  obtain ⟨met, _⟩ := meets (Sprite.apart_of_length_le nofun)
  refine ⟨anyOrder _ (.swap _ _ _), met.2 ⟨(0, 0), ?_⟩⟩
  decide +kernel

end Screen

end Chip8
