import Chip8.Proofs.Standing

/-!
Skips. What a skip asks for is a matter of the registers and of the names of the keys held now (`Condition.Asked`); of
these only the names that the layout knows count, and each once (`Condition.asked_congr`). Each test has an opposite,
which asks for just what the test does not (`Condition.asked_opposite_iff`). With room for what may be skipped, a cycle
leaves the counter behind the next instruction if the test is met and behind the skip itself if not, whatever else is in
the machine (`Emulator.skips_as_asked`).
-/
namespace Chip8
variable {τ σ : Type}

namespace Layout

/-- One of the names stands for the key with the number. -/
def Down (held : List String) (number : Nat) : Prop :=
  ∃ name ∈ held, (List.lookup name standard).map Fin.val = some number

/-- The same keys are held under both lists of names: other names, order and repetition do not matter. -/
def Alike (held held' : List String) : Prop := ∀ name ∈ names, name ∈ held ↔ name ∈ held'

theorem mem_names_of_lookup {name : String} {key : Key} (known : List.lookup name standard = some key) :
    name ∈ names := by
  rw [← lookup_eq_some_iff.1 known]
  exact List.get_mem names key

theorem mem_keys_iff_down {held : List String} {key : Key} : key ∈ keys held ↔ Down held key := by
  rw [keys, List.mem_filterMap]
  refine exists_congr fun name => and_congr_right fun _ => ?_
  rw [Option.map_eq_some_iff]
  constructor
  · intro known
    exact ⟨key, known, rfl⟩
  · rintro ⟨other, known, number⟩
    rw [known]
    exact congrArg some (Fin.ext number)

theorem down_congr {held held' : List String} (alike : Alike held held') (number : Nat) :
    Down held number ↔ Down held' number := by
  refine exists_congr fun name => and_congr_left fun found => ?_
  obtain ⟨key, known, -⟩ := Option.map_eq_some_iff.1 found
  exact alike name (mem_names_of_lookup known)

end Layout

namespace Condition

/-- What a skip asks for: how registers compare, or whether one of the names held stands for the key that the low four
    bits of a register tell. -/
def Asked (V : Registers) (held : List String) : Condition → Prop
  | equalsByte x kk => V.get x = kk
  | differsFromByte x kk => V.get x ≠ kk
  | equal x y => V.get x = V.get y
  | different x y => V.get x ≠ V.get y
  | pressed x => Layout.Down held ((V.get x).toNat % 16)
  | notPressed x => ¬ Layout.Down held ((V.get x).toNat % 16)

/-- The test that is met exactly if this one is not. -/
def opposite : Condition → Condition
  | equalsByte x kk => differsFromByte x kk
  | differsFromByte x kk => equalsByte x kk
  | equal x y => different x y
  | different x y => equal x y
  | pressed x => notPressed x
  | notPressed x => pressed x

theorem met_iff_asked (m : Machine τ) (c : Condition) : c.Met m ↔ c.Asked m.registers m.keyboard.held := by
  cases c with
  | pressed x => exact Layout.mem_keys_iff_down
  | notPressed x => exact not_congr Layout.mem_keys_iff_down
  | _ => rfl

theorem asked_opposite_iff (V : Registers) (held : List String) (c : Condition) :
    c.opposite.Asked V held ↔ ¬ c.Asked V held := by
  cases c with
  | equalsByte | equal | pressed => rfl
  | differsFromByte | different | notPressed => exact Classical.not_not.symm

theorem asked_congr {held held' : List String} (alike : Layout.Alike held held') (V : Registers) (c : Condition) :
    c.Asked V held ↔ c.Asked V held' := by
  cases c with
  | pressed x => exact Layout.down_congr alike _
  | notPressed x => exact not_congr (Layout.down_congr alike _)
  | _ => rfl

end Condition

namespace Emulator

/-- The cycle that begins here passes over the instruction behind its own. -/
def Skips (e : Emulator τ) : Prop := e.step.state.machine.core.pc.addr = e.machine.core.pc.addr + 4

/-- The cycle that begins here goes on to the instruction behind its own. -/
def Proceeds (e : Emulator τ) : Prop := e.step.state.machine.core.pc.addr = e.machine.core.pc.addr + 2

/-- The second emulator stands where the first does, with the same registers, and the same keys are held now. What their
    memories hold elsewhere and what either keypad has seen before is open. -/
structure SamePosition (e : Emulator τ) (other : Emulator σ) : Prop where
  registers : other.machine.registers = e.machine.registers
  counter : other.machine.core.pc = e.machine.core.pc
  held : Layout.Alike other.machine.keyboard.held e.machine.keyboard.held

/-- A skip with room for what it may skip runs through, and nothing but the counter moves and a test of a key looks. -/
theorem step_of_skip {e : Emulator τ} {c : Condition} (reads : Instruction.decode e.machine.nextWord = .skip c)
    (room : e.machine.core.pc.addr + 4 ≤ e.machine.core.pc.limit) :
    e.step.result = .ok (.skip c) ∧ (c.Met e.machine → e.step.state.machine = (e.machine.tested c).ahead 4) ∧
      (¬ c.Met e.machine → e.step.state.machine = (e.machine.ahead 2).tested c) := by
  have begins : e.machine.core.pc.addr + 2 ≤ e.machine.core.pc.limit := by omega
  by_cases met : c.Met e.machine
  · have ran : (e.machine.ahead 2).execute (.decode e.machine.nextWord) = .done ((e.machine.tested c).ahead 4) () := by
      rw [reads, Machine.execute, Machine.skip_of_le ((e.machine.met_ahead_iff 2 c).2 met), Machine.ahead_tested_ahead]
      · rfl
      · rw [Machine.core_ahead]
        show e.machine.core.pc.addr + 2 + 2 ≤ e.machine.core.pc.limit
        omega
    rw [step_of_done begins ran, reads]
    exact ⟨rfl, fun _ => rfl, fun unmet => absurd met unmet⟩
  · have ran : (e.machine.ahead 2).execute (.decode e.machine.nextWord) = .done ((e.machine.ahead 2).tested c) () := by
      rw [reads, Machine.execute, Machine.skip_of_not_met (mt (e.machine.met_ahead_iff 2 c).1 met)]
    rw [step_of_done begins ran, reads]
    exact ⟨rfl, fun met' => absurd met' met, fun _ => rfl⟩

theorem skips_of_asked {e : Emulator τ} {c : Condition} (reads : Instruction.decode e.machine.nextWord = .skip c)
    (room : e.machine.core.pc.addr + 4 ≤ e.machine.core.pc.limit) :
    (c.Asked e.machine.registers e.machine.keyboard.held → e.Skips) ∧
      (¬ c.Asked e.machine.registers e.machine.keyboard.held → e.Proceeds) := by
  obtain ⟨-, taken, passed⟩ := step_of_skip reads room
  rw [← c.met_iff_asked]
  constructor
  · intro met
    rw [Skips, taken met, Machine.core_ahead, Machine.core_tested]
  · intro unmet
    rw [Proceeds, passed unmet, Machine.core_tested, Machine.core_ahead]

theorem asked_iff_skips {e : Emulator τ} {c : Condition} (reads : Instruction.decode e.machine.nextWord = .skip c)
    (room : e.machine.core.pc.addr + 4 ≤ e.machine.core.pc.limit) :
    c.Asked e.machine.registers e.machine.keyboard.held ↔ e.Skips := by
  obtain ⟨taken, passed⟩ := skips_of_asked reads room
  refine ⟨taken, fun skips => Classical.byContradiction fun unmet => ?_⟩
  have proceeds := passed unmet
  rw [Skips] at skips
  rw [Proceeds] at proceeds
  omega

/-- A skip at the counter, with room behind it for what it may skip. It runs through and skips exactly if what it asks
    for is so: a register has the value, or the same value as another, or has not; one of the names held now stands for
    the key that a register tells, or none does. Any emulator in the same position, with the same keys held under
    whatever names and whatever its keypad has seen, skips with the same word exactly if this one does, and with the
    word of the opposite test exactly if this one does not. -/
theorem skips_as_asked {e : Emulator τ} {c : Condition} (reads : Instruction.decode e.machine.nextWord = .skip c)
    (room : e.machine.core.pc.addr + 4 ≤ e.machine.core.pc.limit) :
    e.step.result = .ok (.skip c) ∧
    (c.Asked e.machine.registers e.machine.keyboard.held → e.Skips) ∧
    (¬ c.Asked e.machine.registers e.machine.keyboard.held → e.Proceeds) ∧
    ∀ other : Emulator σ, e.SamePosition other →
      (Instruction.decode other.machine.nextWord = .skip c → (other.Skips ↔ e.Skips)) ∧
      (Instruction.decode other.machine.nextWord = .skip c.opposite → (other.Skips ↔ ¬ e.Skips)) := by
  obtain ⟨taken, passed⟩ := skips_of_asked reads room
  refine ⟨(step_of_skip reads room).1, taken, passed, fun other same => ?_⟩
  have room' : other.machine.core.pc.addr + 4 ≤ other.machine.core.pc.limit := by
    rw [same.counter]
    exact room
  have asked (d : Condition) : d.Asked other.machine.registers other.machine.keyboard.held ↔
      d.Asked e.machine.registers e.machine.keyboard.held := by
    rw [same.registers]
    exact d.asked_congr same.held e.machine.registers
  constructor
  · intro reads'
    rw [← asked_iff_skips reads' room', asked, asked_iff_skips reads room]
  · intro reads'
    rw [← asked_iff_skips reads' room', asked, c.asked_opposite_iff, asked_iff_skips reads room]

/-- V0 tells key 0, which is held; its name is told twice, and beside it one that stands for no key. -/
theorem skips_as_asked_key : ∃ e other : Emulator Rat,
    ofProgram (.plain #[0xE0, 0x9E, 0x00, 0x00]) = .ok e ∧ ofProgram (.plain #[0xE0, 0xA1, 0x00, 0x00]) = .ok other ∧
    (e.act (.hold (.holding ["F1", "X", "X"]))).state.Skips ∧ ¬ (other.act (.hold (.holding ["X"]))).state.Skips := by
  obtain ⟨e, starts, started⟩ := exists_plain #[0xE0, 0x9E, 0x00, 0x00] (by decide)
  obtain ⟨other, starts', started'⟩ := exists_plain #[0xE0, 0xA1, 0x00, 0x00] (by decide)
  have word : Instruction.decode e.machine.nextWord = .skip (.pressed 0) := by
    rw [started.nextWord (by decide)]
    decide
  have word' : Instruction.decode other.machine.nextWord = .skip (.notPressed 0) := by
    rw [started'.nextWord (by decide)]
    decide
  have registers : e.machine.registers = .zero := by rw [started.machine]; rfl
  have registers' : other.machine.registers = .zero := by rw [started'.machine]; rfl
  have counter : e.machine.core.pc = ⟨0x200, 0x204⟩ := by rw [started.machine]; rfl
  have counter' : other.machine.core.pc = ⟨0x200, 0x204⟩ := by rw [started'.machine]; rfl
  have room : e.machine.core.pc.addr + 4 ≤ e.machine.core.pc.limit := by rw [counter]; decide
  obtain ⟨-, taken, -, alike⟩ :=
    skips_as_asked (σ := Rat) (e := (e.act (.hold (.holding ["F1", "X", "X"]))).state) word room
  have asked : Condition.Asked e.machine.registers ["F1", "X", "X"] (.pressed 0) := by
    rw [registers]
    exact ⟨"X", by decide, by decide⟩
  have skips := taken asked
  have same : (e.act (.hold (.holding ["F1", "X", "X"]))).state.SamePosition
      (other.act (.hold (.holding ["X"]))).state := by
    refine ⟨registers'.trans registers.symm, counter'.trans counter.symm, ?_⟩
    show ∀ name ∈ Layout.names, name ∈ ["X"] ↔ name ∈ ["F1", "X", "X"]
    decide
  exact ⟨e, other, starts, starts', skips, fun other => ((alike _ same).2 word').1 other skips⟩

end Emulator

end Chip8
