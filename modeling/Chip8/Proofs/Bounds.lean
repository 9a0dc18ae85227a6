import Chip8.Proofs.Countdown
import Chip8.Proofs.Faults
import Chip8.Proofs.Loading

/-!
What bounds every state of an emulator up to the end of its program. The bounds of the core carry each other
(`Core.Bounded.flow`): return addresses were counters, so a return lands inside, and only a computed jump leaves
the program. With the mark of a wait they make up `Emulator.Bounded`, which a cycle that does not meet the end
keeps (`Emulator.Bounded.step`), and one that meets it up to the two bytes it fetched (`Emulator.Bounded.last`).
`Emulator.run_bounds` states what follows for all that a program can do.
-/
namespace Chip8
variable {τ : Type}

/-- The end of the program is where it was loaded to; I has sixteen bits; no return address lies past the end. -/
structure Core.Bounded (limit : Int) (c : Core) : Prop where
  limit_eq : c.pc.limit = limit
  addr_nonneg : 0 ≤ c.pc.addr
  index_bounds : 0 ≤ c.index.addr ∧ c.index.addr < 65536
  length_le : c.stack.addresses.length ≤ 16
  returns : ∀ addr ∈ c.stack.addresses, 2 ≤ addr ∧ addr ≤ limit

namespace Core.Bounded
variable {limit : Int} {c : Core}

theorem standing (bounded : c.Bounded limit) : c.Standing where
  addr_nonneg := bounded.addr_nonneg
  returns_nonneg addr pushed := Int.le_trans (by decide) (bounded.returns addr pushed).1
  length_le := bounded.length_le

/-- An instruction that was fetched from inside the program keeps the bounds. -/
theorem flow {m : Machine τ} {i : Instruction} (bounded : m.core.Bounded limit)
    (fetched : 2 ≤ m.core.pc.addr ∧ m.core.pc.addr ≤ limit) (flow : m.Flow i c) : c.Bounded limit where
  limit_eq := flow.limit_eq.trans bounded.limit_eq
  addr_nonneg := (bounded.standing.flow flow).addr_nonneg
  index_bounds := flow.index_bounds bounded.index_bounds
  length_le := flow.length_stack_le bounded.length_le
  returns := by
    cases flow with
    | called =>
      rintro addr (_ | ⟨_, old⟩)
      · exact fetched
      · exact bounded.returns addr old
    | returned calls =>
      intro addr old
      exact bounded.returns addr (by rw [calls]; exact List.mem_cons_of_mem _ old)
    | _ => exact bounded.returns

/-- No instruction leads further than a jump from the last address by the largest byte. -/
theorem addr_le {m : Machine τ} {i : Instruction} (bounded : m.core.Bounded limit) (small : limit ≤ 4096)
    (fetched : m.core.pc.addr ≤ limit) (flow : m.Flow i c) : c.pc.addr ≤ 0x10FE := by
  cases flow with
  | jumped addr | called addr =>
    have narrow := addr.isLt
    simp only [Core.jump, ProgramCounter.jump]
    omega
  | jumpedFromV0 addr =>
    have narrow := addr.isLt
    have byte := (m.registers.get Registers.first).isLt
    simp only [Core.jump, ProgramCounter.jump]
    omega
  | skipped =>
    simp only [ProgramCounter.advance]
    omega
  | @returned addr rest calls =>
    have inside := (bounded.returns addr (by rw [calls]; exact List.mem_cons_self)).2
    simp only [ProgramCounter.jump]
    omega
  | waited =>
    simp only [Core.rewind, ProgramCounter.rewind]
    split
    · simp only; omega
    · omega
  | _ => exact Int.le_trans fetched (Int.le_trans small (by decide))

end Core.Bounded

namespace Emulator

/-- The bounds of the core, the counter not past `top`, and the wait that has begun next in line. -/
structure Bounded (limit top : Int) (e : Emulator τ) : Prop where
  core : e.machine.core.Bounded limit
  addr_le : e.machine.core.pc.addr ≤ top
  waiting : e.machine.waiting = true →
    ∃ x, e.machine.nextWord = Instruction.encode (.waitKey x) ∧ e.machine.core.pc.addr + 2 ≤ limit

namespace Bounded
variable {limit top : Int} {e : Emulator τ}

theorem mono {higher : Int} (bounded : e.Bounded limit top) (le : top ≤ higher) : e.Bounded limit higher :=
  ⟨bounded.core, Int.le_trans bounded.addr_le le, bounded.waiting⟩

/-- A mark that a wait has begun is left by that wait alone, in front of it. -/
theorem waiting_step (bounded : e.Bounded limit top) (room : ¬ e.PastEnd)
    (waits : e.step.state.machine.waiting = true) :
    ∃ x, e.machine.nextWord = Instruction.encode (.waitKey x) ∧ e.step.state.machine.core = e.machine.core := by
  have inside := Int.not_lt.1 room
  by_cases named : ∃ x, Instruction.decode e.machine.nextWord = .waitKey x
  · obtain ⟨x, reads⟩ := named
    refine ⟨x, (Instruction.decode_eq_iff (by simp) _).1 reads, ?_⟩
    rw [machine_step_of_le inside, reads, Machine.execute, Attempt.state_done] at waits ⊢
    cases found : e.machine.look.awaited? with
    | none => simp only [Machine.waitKey_ahead_of_none x bounded.core.addr_nonneg found, Machine.core_look]
    | some key =>
      rw [Machine.waitKey_ahead_of_some x found] at waits
      cases waits
  · -- Any other instruction leaves the mark, and what was marked would have been the wait.
    rw [machine_step_of_le inside, Machine.waiting_execute (not_exists.1 named)] at waits
    obtain ⟨x, word, _⟩ := bounded.waiting waits
    exact absurd ⟨x, (Instruction.decode_eq_iff (by simp) _).2 word⟩ named

/-- A cycle that is no step past the end keeps the bounds, whether it runs through or not. -/
theorem step_of_room (bounded : e.Bounded limit top) (small : limit ≤ 4096) (room : ¬ e.PastEnd) :
    e.step.state.Bounded limit 0x10FE := by
  have inside : e.machine.core.pc.addr + 2 ≤ e.machine.core.pc.limit := Int.not_lt.1 room
  have ahead : (e.machine.ahead 2).core.Bounded limit :=
    ⟨bounded.core.limit_eq, bounded.core.standing.advance.addr_nonneg, bounded.core.index_bounds,
      bounded.core.length_le, bounded.core.returns⟩
  have fetched : 2 ≤ (e.machine.ahead 2).core.pc.addr ∧ (e.machine.ahead 2).core.pc.addr ≤ limit := by
    have nonneg := bounded.core.addr_nonneg
    rw [bounded.core.limit_eq] at inside
    rw [Machine.core_ahead]
    exact ⟨by simp only; omega, inside⟩
  have flow := (e.machine.ahead 2).execute_flow (.decode e.machine.nextWord)
  rw [← machine_step_of_le inside] at flow
  refine ⟨ahead.flow fetched flow, ahead.addr_le small fetched.2 flow, fun waits => ?_⟩
  obtain ⟨x, word, same⟩ := bounded.waiting_step room waits
  rw [bounded.core.limit_eq] at inside
  rw [Machine.nextWord, same]
  exact ⟨x, word, inside⟩

theorem step (bounded : e.Bounded limit top) (small : limit ≤ 4096)
    (runs : ∀ pc, e.step.result ≠ .error (.finished pc)) : e.step.state.Bounded limit 0x10FE := by
  refine bounded.step_of_room small fun beyond => ?_
  obtain ⟨pc, stops⟩ := finished_iff.2 (.inl beyond)
  exact runs pc stops

/-- The cycle that meets the end has gone at most two bytes further. -/
theorem last (bounded : e.Bounded limit 0x10FE) (small : limit ≤ 4096) : e.step.state.Bounded limit 0x1100 := by
  by_cases beyond : e.PastEnd
  · rw [step_of_lt beyond, Attempt.state_stopped]
    refine ⟨⟨bounded.core.limit_eq, bounded.core.standing.advance.addr_nonneg, bounded.core.index_bounds,
      bounded.core.length_le, bounded.core.returns⟩, Int.add_le_add_right bounded.addr_le 2, fun waits => ?_⟩
    obtain ⟨x, _, inside⟩ := bounded.waiting waits
    have limit_eq := bounded.core.limit_eq
    rw [PastEnd] at beyond
    omega
  · exact (bounded.step_of_room small beyond).mono (by decide)

theorem congr {other : Emulator τ} (bounded : e.Bounded limit top) (core : other.machine.core = e.machine.core)
    (waiting : other.machine.waiting = e.machine.waiting) : other.Bounded limit top := by
  obtain ⟨inside, addr_le, next⟩ := bounded
  refine ⟨by rw [core]; exact inside, by rw [core]; exact addr_le, fun waits => ?_⟩
  rw [Machine.nextWord, core]
  exact next (waiting.symm.trans waits)

theorem kept [Time τ] : Kept fun e : Emulator τ => e.Bounded limit top where
  timers bounded := bounded.congr rfl rfl
  display {e} now bounded := by
    obtain ⟨dirty, machine⟩ := e.machine_syncDisplay now
    exact bounded.congr (by rw [machine]) (by rw [machine])
  stop bounded := bounded.congr rfl rfl
  pace _ _ _ _ _ _ bounded := bounded.congr rfl rfl

end Bounded

theorem Started.bounded {s : Setup τ} {e : Emulator τ} (started : Started s.loaded e) :
    e.Bounded (0x200 + s.program.size) 0x10FE := by
  obtain ⟨addr_nonneg, returns, length_le⟩ := started.standing
  have addr : e.machine.core.pc.addr = 512 := by rw [started.machine]; rfl
  have index : e.machine.core.index.addr = 0 := by rw [started.machine]; rfl
  have empty : e.machine.core.stack.addresses = [] := by rw [started.machine]; rfl
  refine ⟨⟨by rw [started.machine]; rfl, addr_nonneg, by rw [index]; decide, length_le, ?_⟩, by rw [addr]; decide, ?_⟩
  · rw [empty]
    nofun
  · rw [started.machine]
    nofun

/-- Loading the program has put its bytes in the place of as many. -/
theorem Started.bytes {s : Setup τ} {e : Emulator τ} (started : Started s.loaded e)
    (fits : 0x200 + s.program.size ≤ 4096) :
    e.machine.core.memory.bytes = Memory.splice Memory.initial.bytes 0x200 s.program.toList ∧
    (Memory.splice Memory.initial.bytes 0x200 s.program.toList).length = 4096 := by
  have whole : Memory.initial.bytes.length = 4096 := Vector.length_toList
  constructor
  · rw [started.machine]
    exact Memory.initial.bytes_overlay fits
  · rw [Memory.length_splice (by rw [whole]; exact fits), whole]

/-! ### Runs -/

variable [Time τ]

/-- Cycles and passes up to the end of the program, the timers and the display, other keys, and what a pass is
    made of. -/
def Operation (ended : Bool) : Act τ → Prop
  | .step | .runOnce | .catchUp _ _ => ended = false
  | .syncTimers | .syncDisplay _ | .hold _ | .readClock | .dropBacklog _ => True
  | _ => False

/-- The highest counter there may be. -/
def highest (ended : Bool) : Int := if ended then 0x1100 else 0x10FE

theorem le_highest (ended : Bool) : 0x10FE ≤ highest ended := by cases ended <;> decide

/-- The bounds of a pass that met the end. -/
theorem Bounded.kept_end {limit : Int} : Kept fun e : Emulator τ => e.Bounded limit 0x1100 ∧ e.finished = true where
  timers holds := ⟨kept.timers holds.1, holds.2⟩
  display {e} now holds := ⟨kept.display now holds.1, (e.finished_syncDisplay now).trans holds.2⟩
  stop holds := ⟨kept.stop holds.1, holds.2⟩
  pace clock keyboard lastCycle cycles isOpen journal holds :=
    ⟨kept.pace clock keyboard lastCycle cycles isOpen journal holds.1, holds.2⟩

/-- What may still be done after the end runs no instruction. -/
theorem Kept.act {P : Emulator τ → Prop} (kept : Kept P) {e : Emulator τ} {a : Act τ} (allowed : Operation true a)
    (holds : P e) : P (e.act a).state := by
  cases a with
  | syncTimers => exact kept.timers holds
  | syncDisplay now => exact kept.display now holds
  | hold keyboard => exact kept.hold holds keyboard
  | readClock => exact kept.readClock holds
  | dropBacklog now => exact kept.dropBacklog holds now
  | _ => cases allowed

/-- An operation keeps the bounds, and those of the end if it meets the end. -/
theorem Bounded.act {limit : Int} {e : Emulator τ} (small : limit ≤ 4096) {ended : Bool} {a : Act τ}
    (allowed : Operation ended a) (bounded : e.Bounded limit (highest ended)) :
    (e.act a).state.Bounded limit (highest (ended || metEnd (e.act a))) := by
  cases ended with
  | true => exact kept.act allowed bounded
  | false =>
    rw [Bool.false_or]
    have pass {after : Attempt (Emulator τ) Unit} (left : after.state.Bounded limit 0x10FE ∨
        after.state.Bounded limit 0x1100 ∧ after.state.finished = true) :
        after.state.Bounded limit (highest (metEnd after)) := by
      rcases left with inside | ⟨last, finished⟩
      · exact inside.mono (le_highest _)
      · rw [metEnd, finished]
        exact last
    cases a with
    | step =>
      by_cases met : ∃ pc, e.step.result = .error (.finished pc)
      · obtain ⟨pc, stops⟩ := met
        have ends : metEnd (e.act .step) = true := by simp [metEnd, Emulator.act, Attempt.forget, stops, Except.map]
        rw [ends]
        exact bounded.last small
      · exact (bounded.step small (not_exists.1 met)).mono (le_highest _)
    | runOnce =>
      exact pass (kept.runOnce kept_end (step · small)
        (fun _ _ bounded _ => ⟨(bounded.last small).congr rfl rfl, rfl⟩) bounded)
    | catchUp now budget =>
      exact pass (kept.catchUp (Q := fun e => e.Bounded limit 0x1100 ∧ e.finished = true) (step · small)
        (fun _ _ bounded _ => ⟨(bounded.last small).congr rfl rfl, rfl⟩) now budget bounded)
    | _ =>
      refine mono ?_ (le_highest _)
      exact kept.act allowed bounded

theorem Bounded.of_run {limit : Int} (small : limit ≤ 4096) {start e : Emulator τ} {ended : Bool}
    (run : start.Run Operation ended e) (bounded : start.Bounded limit 0x10FE) : e.Bounded limit (highest ended) := by
  induction run with
  | nil => exact bounded
  | snoc before allowed ih => exact ih.act small allowed

/-- In every state of a run up to the end of the program, registers, cells, timers and pixels hold what they may
    hold, the counter, I and the return addresses are where they may be, the end of the program is where it was,
    and a wait that has begun is the next cycle. That cycle finds all its operands in range. The load that went
    before left memory its size, and a tick takes no count from a timer that has none. -/
theorem run_bounds {s : Setup τ} {start e : Emulator τ} {ended : Bool} (started : ofProgram s = .ok start)
    (run : start.Run Operation ended e) :
    (∀ x, (e.machine.registers.get x).toNat ≤ 0xFF) ∧
    e.machine.core.memory.cells.toList.length = 4096 ∧
    (∀ b ∈ e.machine.core.memory.cells.toList, b.toNat ≤ 0xFF) ∧
    (0 ≤ e.machine.core.index.addr ∧ e.machine.core.index.addr ≤ 0xFFFF) ∧
    e.machine.delay.count.toNat ≤ 0xFF ∧ e.machine.sound.count.toNat ≤ 0xFF ∧
    (∀ p ∈ e.machine.screen.pixels.pixelList, p.toNat ≤ 1) ∧
    e.machine.core.pc.limit = 0x200 + s.program.size ∧
    (0 ≤ e.machine.core.pc.addr ∧ e.machine.core.pc.addr ≤ if ended then 0x1100 else 0x10FE) ∧
    e.machine.core.stack.addresses.length ≤ 16 ∧
    (∀ addr ∈ e.machine.core.stack.addresses, 2 ≤ addr ∧ addr ≤ e.machine.core.pc.limit) ∧
    (e.machine.waiting = true → ∃ x, e.machine.nextWord = Instruction.encode (.waitKey x) ∧
      e.machine.core.pc.addr + 2 ≤ e.machine.core.pc.limit ∧ e.step.result = .ok (.waitKey x)) ∧
    e.machine.cycleNumbers = .ok (e.step.forget.within machine) ∧
    (start.machine.core.memory.bytes = Memory.splice Memory.initial.bytes 0x200 s.program.toList ∧
      (Memory.splice Memory.initial.bytes 0x200 s.program.toList).length = 4096) ∧
    ∀ now,
      (e.machine.delay.tick now).1.count.toNat + (if (e.machine.delay.tick now).2 then 1 else 0) =
        e.machine.delay.count.toNat ∧
      (e.machine.sound.tick now).1.count.toNat + (if (e.machine.sound.tick now).2 then 1 else 0) =
        e.machine.sound.count.toNat := by
  have begun := started_of_ofProgram started
  have fits : 0x200 + s.program.size ≤ 4096 := by
    have room := (start_of_ofProgram started).1
    simp only [Core.room, Memory.programStart] at room
    omega
  have small : (0x200 + s.program.size : Int) ≤ 4096 := by omega
  obtain ⟨core, addr_le, waiting⟩ := Bounded.of_run small run begun.bounded
  obtain ⟨limit_eq, addr_nonneg, index, length_le, returns⟩ := core
  have byte (b : Byte) : b.toNat ≤ 0xFF := Nat.le_of_lt_succ b.isLt
  refine ⟨fun x => byte _, by simp, fun b _ => byte b, ⟨index.1, Int.le_of_lt_add_one index.2⟩, byte _, byte _,
    fun p _ => Bool.toNat_le p, limit_eq, ⟨addr_nonneg, addr_le⟩, length_le, ?_, fun waits => ?_, e.cycleNumbers_eq,
    begun.bytes fits, fun now => ⟨e.machine.delay.toNat_count_tick now, e.machine.sound.toNat_count_tick now⟩⟩
  · rw [limit_eq]
    exact returns
  · obtain ⟨x, word, room⟩ := waiting waits
    rw [← limit_eq] at room
    exact ⟨x, word, room, by rw [step_of_waitKey word room, Attempt.result_done]⟩

theorem run_bounds_wait : ∃ start e : Emulator Rat, ∃ ended, ofProgram (.plain #[0xF0, 0x0A]) = .ok start ∧
    start.Run Operation ended e ∧ e.machine.waiting = true ∧ e.step.result = .ok (.waitKey 0) := by
  obtain ⟨start, starts, started, word, counter⟩ := exists_plain_wait
  have room : start.machine.core.pc.addr + 2 ≤ start.machine.core.pc.limit := by rw [counter]; decide
  have up : start.machine.look.awaited? = none := by rw [started.machine]; rfl
  have after : start.step.state.machine = { start.machine.look with waiting := true } := by
    rw [step_of_waitKey word room, Attempt.state_done]
    exact Machine.waitKey_ahead_of_none 0 started.standing.addr_nonneg up
  have run : start.Run Operation _ start.step.state := .snoc .nil (a := .step) rfl
  have waits : start.step.state.machine.waiting = true := by rw [after]
  obtain ⟨_, _, _, _, _, _, _, _, _, _, _, next, _⟩ := run_bounds starts run
  obtain ⟨x, again, _, ran⟩ := next waits
  have same : start.step.state.machine.nextWord = start.machine.nextWord := by
    simp only [after, Machine.nextWord, Machine.core_look]
  have found : Instruction.waitKey x = .waitKey 0 :=
    (Instruction.encode_inj (by simp) (by simp)).1 (again.symm.trans (same.trans word))
  rw [found] at ran
  exact ⟨start, start.step.state, _, starts, run, waits, ran⟩

end Emulator
end Chip8
