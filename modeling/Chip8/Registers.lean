import Chip8.Slot
import Chip8.Text.Hex

/-!
The sixteen byte registers and the arithmetic between them. An operation first computes its result and
its flag from the old operands (`AluOp.eval`), then stores the result, then the flag in VF; so VF holds
the flag even where it is the destination (`Registers.alu`).
-/
namespace Chip8

/-- The operations of the form `8xy?`. -/
inductive AluOp where
  | copy
  | or
  | and
  | xor
  | add
  | subtract
  | shiftRight
  | subtractFrom
  | shiftLeft
deriving DecidableEq

namespace AluOp

/-- The result and, where the operation has one, the flag, from the destination's old value `v` and the
    source `w`. The flag of an addition is its carry, of a subtraction the absence of a borrow, of a
    shift the bit shifted out. -/
def eval : AluOp → Byte → Byte → Byte × Option Bool
  | copy, _, w => (w, none)
  | or, v, w => (v ||| w, none)
  | and, v, w => (v &&& w, none)
  | xor, v, w => (v ^^^ w, none)
  | add, v, w => (v + w, some (decide (255 < v.toNat + w.toNat)))
  | subtract, v, w => (v - w, some (decide (w.toNat ≤ v.toNat)))
  | shiftRight, _, w => (w >>> 1, some (w.getLsbD 0))
  | subtractFrom, v, w => (w - v, some (decide (v.toNat ≤ w.toNat)))
  | shiftLeft, _, w => (w <<< 1, some (w.getLsbD 7))

/-- A shift may read another register than its destination. -/
def isShift : AluOp → Bool
  | shiftRight | shiftLeft => true
  | _ => false

end AluOp

/-- V0 to VF. -/
structure Registers where
  cells : Vector Byte 16
deriving DecidableEq

namespace Registers

/-- V0, from which computed jumps start. -/
def first : Register := ⟨0, by decide⟩
/-- VF, which receives flags. -/
def flag : Register := ⟨15, by decide⟩

def zero : Registers := ⟨Vector.replicate 16 0⟩

def get (V : Registers) (x : Register) : Byte := V.cells[x]

def set (V : Registers) (x : Register) (b : Byte) : Registers := ⟨V.cells.set x b⟩

/-- VF becomes 1 or 0. -/
def setFlag (V : Registers) (b : Bool) : Registers := V.set flag (if b then 1 else 0)

/-- Addition that leaves VF alone. -/
def addByte (V : Registers) (x : Register) (kk : Byte) : Registers := V.set x (V.get x + kk)

/-- The operation on Vx and Vy: the result goes to Vx, then the flag to VF. -/
def alu (V : Registers) (op : AluOp) (x y : Register) : Registers :=
  match op.eval (V.get x) (V.get y) with
  | (r, none) => V.set x r
  | (r, some f) => (V.set x r).setFlag f

/-- V0 to Vx. -/
def upTo (V : Registers) (x : Register) : List Byte := V.cells.toList.take (x + 1)

/-- The first registers hold the given bytes, the others keep theirs. -/
def putAll (V : Registers) (bs : List Byte) : Registers := ⟨V.cells.mapIdx fun i b => bs[i]?.getD b⟩

@[simp] theorem get_zero (x : Register) : zero.get x = 0 := by simp [zero, get]
@[simp] theorem get_set_self (V : Registers) (x : Register) (b : Byte) : (V.set x b).get x = b := by
  simp [set, get]
theorem get_set (V : Registers) (x y : Register) (b : Byte) :
    (V.set x b).get y = if x = y then b else V.get y := by
  simp only [set, get, Fin.getElem_fin, Vector.getElem_set, Fin.ext_iff]
@[simp] theorem get_set_of_ne (V : Registers) {x y : Register} (b : Byte) (other : x ≠ y) :
    (V.set x b).get y = V.get y := by rw [get_set, if_neg other]
theorem get_putAll (V : Registers) (bs : List Byte) (x : Register) :
    (V.putAll bs).get x = bs[x.val]?.getD (V.get x) := by simp [putAll, get]

theorem ext_get {V W : Registers} (same : ∀ x, V.get x = W.get x) : V = W := by
  obtain ⟨v⟩ := V
  obtain ⟨w⟩ := W
  rw [mk.injEq]
  apply Vector.ext
  intro i inside
  exact same ⟨i, inside⟩

@[simp] theorem putAll_nil (V : Registers) : V.putAll [] = V := by
  apply ext_get
  intro x
  simp [get_putAll]

/-- Putting one byte more. -/
theorem putAll_concat (V : Registers) (bs : List Byte) (b : Byte) (room : bs.length < 16) :
    V.putAll (bs ++ [b]) = (V.putAll bs).set ⟨bs.length, room⟩ b := by
  apply ext_get
  intro x
  rw [get_set, get_putAll, get_putAll]
  by_cases here : (⟨bs.length, room⟩ : Register) = x
  · rw [if_pos here, ← here]; simp
  · rw [if_neg here]
    have other : bs.length ≠ x.val := fun same => here (Fin.ext same)
    rcases Nat.lt_or_ge x.val bs.length with inside | beyond
    · rw [List.getElem?_append_left inside]
    · rw [List.getElem?_append_right beyond, List.getElem?_eq_none_iff.2 beyond,
        List.getElem?_eq_none_iff.2 (by simp only [List.length_singleton]; omega)]

/-! ### Registers by number -/

/-- The register with the given number. -/
def getAt (V : Registers) (i : Int) : Except SlotError Byte :=
  match Slot.find .reading i with
  | .ok x => .ok (V.get x)
  | .error e => .error e

/-- The register with the given number takes the low byte of the value. -/
def setAt (V : Registers) (i v : Int) : Except SlotError Registers :=
  match Slot.find .writing i with
  | .ok x => .ok (V.set x (BitVec.ofInt 8 v))
  | .error e => .error e

def addByteAt (V : Registers) (i v : Int) : Except SlotError Registers :=
  match Slot.find .reading i with
  | .ok x => .ok (V.addByte x (BitVec.ofInt 8 v))
  | .error e => .error e

/-- The operation between numbered registers. A copy and a shift read their source and then write their
    destination; the other operations read the destination, then the source. -/
def aluAt (V : Registers) (op : AluOp) (x y : Int) : Except SlotError Registers :=
  if op = .copy ∨ op.isShift then
    match Slot.find .reading y, Slot.find .writing x with
    | .ok y, .ok x => .ok (V.alu op x y)
    | .error e, _ => .error e
    | .ok _, .error e => .error e
  else
    match Slot.find .reading x, Slot.find .reading y with
    | .ok x, .ok y => .ok (V.alu op x y)
    | .error e, _ => .error e
    | .ok _, .error e => .error e

/-- The bytes in order, into the registers from V0 on. -/
def ofInts (values : List Int) : Except SlotError Registers :=
  values.zipIdx.foldlM (fun V (v, i) => V.setAt i v) zero

/-- The name of a register. -/
def label (x : Register) : String := "V" ++ Text.Hex.upper 1 x.val

/-- Every register as `V0=00`, in order. -/
def describe (V : Registers) : String :=
  let entry := fun (x : Register) => label x ++ "=" ++ Text.Hex.upper 2 (V.get x).toNat
  "RegisterFile(" ++ " ".intercalate ((List.finRange 16).map entry) ++ ")"

end Registers

end Chip8
