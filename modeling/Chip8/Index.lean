/-!
How wide a number may be where it counts cells, pixels or repetitions: 64 bits with its sign.
-/
namespace Chip8.Index

/-- The number has at most 64 bits with its sign. -/
def fits (i : Int) : Bool := -9223372036854775808 ≤ i && i < 9223372036854775808

/-- The number is not negative and has at most 64 bits. -/
def fitsUnsigned (i : Int) : Bool := 0 ≤ i && i < 18446744073709551616

end Chip8.Index
