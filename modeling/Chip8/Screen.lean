import Chip8.Index
import Chip8.Word

/-!
The screen of 64 by 32 pixels. A sprite is a column of bytes, eight pixels wide; drawing it flips the
pixels under its set bits. What lies past an edge is dropped, or comes in at the opposite edge where the
screen wraps. Each row of a sprite becomes a mask for one row of the screen (`Screen.placements`); the
masks together are a picture of what the sprite covers (`Screen.stamp`), and painting adds that picture
to the pixels (`Screen.paint`). Where a wrapped sprite is so tall that two of its rows meet, the lower
one is painted.
-/
namespace Chip8

/-- One row of the screen; the most significant bit is the leftmost pixel. -/
abbrev Row := BitVec 64
/-- The rows of the screen from the top. -/
abbrev Frame := Vector Row 32

namespace Frame

def blank : Frame := Vector.replicate 32 0

/-- The pixel in column `x` of row `y`. -/
def pixel (f : Frame) (x : Nat) (y : Fin 32) : Bool := f[y].getMsbD x

/-- All pixels, row by row. -/
def pixelList (f : Frame) : List Bool := (List.finRange 32).flatMap fun y => (List.range 64).map fun x => f.pixel x y

/-- The number of set pixels. -/
def lit (f : Frame) : Nat := f.pixelList.countP id

/-- The pixels set in one frame but not in both. -/
def add (f g : Frame) : Frame := Vector.zipWith (· ^^^ ·) f g

@[simp] theorem pixel_blank (x : Nat) (y : Fin 32) : blank.pixel x y = false := by simp [blank, pixel]
theorem pixel_add (f g : Frame) (x : Nat) (y : Fin 32) : (f.add g).pixel x y = (f.pixel x y ^^ g.pixel x y) := by
  simp [add, pixel]
/-- Adding a frame twice gives back what was there. -/
theorem add_add_self (f g : Frame) : (f.add g).add g = f := by
  ext y row
  simp only [add, Vector.getElem_zipWith, BitVec.xor_assoc, BitVec.xor_self, BitVec.xor_zero]

end Frame

/-- A pixel outside the screen, found on the vertical or on the horizontal axis, or a coordinate too wide
    to be one: within 64 bits without a sign, or not even that. -/
inductive PixelError where
  | row (y : Int)
  | column (x : Int)
  | tooLarge
  | noIndex
deriving DecidableEq

namespace PixelError

def message : PixelError → String
  | row y => "index " ++ toString y ++ " is out of bounds for axis 0 with size 32"
  | column x => "index " ++ toString x ++ " is out of bounds for axis 1 with size 64"
  | tooLarge => "Python int too large to convert to C long"
  | noIndex =>
    "only integers, slices (`:`), ellipsis (`...`), numpy.newaxis (`None`) and integer or boolean arrays are valid indices"

end PixelError

/-- The pixels, and whether they may differ from what was last shown. -/
structure Screen where
  pixels : Frame
  dirty : Bool
deriving DecidableEq

namespace Screen

def width : Nat := 64
def height : Nat := 32

def initial : Screen := ⟨.blank, true⟩

/-- The mask of a sprite row whose leftmost pixel lies in column `x`. -/
def mask (wrap : Bool) (x : Nat) (b : Byte) : Row :=
  let left : Row := b.setWidth 64 <<< 56
  if wrap then left.rotateRight x else left >>> x

/-- The screen row that a sprite row falls on, `r` rows below `y`. -/
def rowAt? (wrap : Bool) (y r : Nat) : Option (Fin 32) :=
  if wrap then some ⟨(y + r) % 32, Nat.mod_lt _ (by decide)⟩ else if inside : y + r < 32 then some ⟨y + r, inside⟩ else none

/-- The screen rows that a sprite at column `x` and row `y` falls on, each with its mask, from the top of
    the sprite down. -/
def placements (wrap : Bool) (x y : Nat) (rows : List Byte) : List (Fin 32 × Row) :=
  rows.zipIdx.filterMap fun (b, r) => (rowAt? wrap y r).map fun j => (j, mask wrap x b)

/-- The picture of the placed rows alone; of two rows in one place the later one counts. -/
def stamp (placed : List (Fin 32 × Row)) : Frame := placed.foldl (fun f (j, m) => f.set j m) .blank

/-- Draws a sprite and tells whether it met a set pixel. Coordinates wrap before anything is drawn; the
    screen becomes dirty if some visible pixel of the sprite is set. -/
def paint (s : Screen) (wrap : Bool) (x y : Int) (rows : List Byte) : Screen × Bool :=
  let placed := placements wrap (x % 64).toNat (y % 32).toNat rows
  ({ pixels := s.pixels.add (stamp placed), dirty := s.dirty || placed.any fun (_, m) => m != 0 },
    placed.any fun (j, m) => s.pixels[j] &&& m != 0)

/-- All pixels off. A screen that was blank stays as it was. -/
def clear (s : Screen) : Screen := if s.pixels = .blank then s else ⟨.blank, true⟩

/-- A column or row number, negative numbers counted back from the far edge. -/
def coordinate? (size : Nat) (i : Int) : Option Nat :=
  if 0 ≤ i ∧ i < size then some i.toNat else if -size ≤ i ∧ i < 0 then some (i + size).toNat else none

/-- What is wrong with a coordinate of more than 64 bits. -/
def widthError? (i : Int) : Option PixelError :=
  if Index.fits i then none else some (if Index.fitsUnsigned i then .tooLarge else .noIndex)

/-- The pixel at the given place. The row is checked before the column, and the width of both numbers
    before either is looked for on the screen. -/
def pixelAt (s : Screen) (x y : Int) : Except PixelError Bool :=
  match (widthError? y).or (widthError? x), coordinate? 32 y, coordinate? 64 x with
  | some e, _, _ => .error e
  | none, none, _ => .error (.row y)
  | none, some _, none => .error (.column x)
  | none, some j, some i => .ok (s.pixels.pixel i ⟨j % 32, Nat.mod_lt j (by decide)⟩)

end Screen

end Chip8
