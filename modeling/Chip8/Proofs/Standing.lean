import Chip8.Proofs.Flow
import Chip8.Proofs.Run

/-!
Starts, and what stands on the core from then on. A program that fits starts at every rate that has a period
(`Emulator.exists_ofProgram`). Whatever is done to the emulator afterwards, the counter and the return addresses
are never negative and there are at most sixteen of these (`Core.Standing`, `Emulator.Reachable.standing`).
-/
namespace Chip8
variable {τ : Type}

/-- The counter and the return addresses are not negative, and no more calls are open than the stack takes. -/
structure Core.Standing (c : Core) : Prop where
  addr_nonneg : 0 ≤ c.pc.addr
  returns_nonneg : ∀ addr ∈ c.stack.addresses, 0 ≤ addr
  length_le : c.stack.addresses.length ≤ 16

namespace Core.Standing
variable {c : Core}

theorem advance (standing : c.Standing) : Standing { c with pc := c.pc.advance } :=
  ⟨Int.add_nonneg standing.addr_nonneg (by decide), standing.returns_nonneg, standing.length_le⟩

theorem flow {m : Machine τ} {i : Instruction} (standing : m.core.Standing) (flow : m.Flow i c) : c.Standing := by
  refine ⟨?_, ?_, flow.length_stack_le standing.length_le⟩
  · cases flow with
    | jumped addr | called addr => exact Int.natCast_nonneg _
    | jumpedFromV0 addr => exact Int.natCast_nonneg (addr.toNat + (m.registers.get Registers.first).toNat)
    | skipped => exact standing.advance.addr_nonneg
    | @returned addr rest calls => exact standing.returns_nonneg addr (by rw [calls]; exact List.mem_cons_self)
    | waited x =>
      have bound := standing.addr_nonneg
      simp only [Core.rewind, ProgramCounter.rewind]
      split
      next inMemory => simp only; omega
      next => exact bound
    | _ => exact standing.addr_nonneg
  · cases flow with
    | called addr =>
      rintro addr (_ | ⟨_, old⟩)
      · exact standing.addr_nonneg
      · exact standing.returns_nonneg addr old
    | returned calls =>
      intro addr old
      exact standing.returns_nonneg addr (by rw [calls]; exact List.mem_cons_of_mem _ old)
    | _ => exact standing.returns_nonneg

end Core.Standing

/-- The words of a program that was put into memory. -/
theorem Memory.word_overlay (m : Memory) {program : Array Byte} (fits : program.size ≤ Core.room) {i : Nat}
    (inside : i + 1 < program.size) :
    (m.overlay Memory.programStart program).word (0x200 + i) = Word.ofBytes program[i] program[i + 1] := by
  have small : program.size ≤ 3584 := fits
  have first : ((0x200 + i : Int) % 4096).toNat = 512 + i := by omega
  have second : ((0x200 + i + 1 : Int) % 4096).toNat = 512 + (i + 1) := by omega
  simp [Memory.word, Memory.get_overlay, Memory.programStart, first, second, inside, Nat.lt_of_succ_lt inside]

/-- A program in the common dialect, on a clock that stands still. -/
def Setup.plain (program : Array Byte) : Setup Rat := ⟨program, 500, .plain, .seeded 0, .still 0, false, true⟩

/-- The machine with a program in it. -/
def Setup.loaded (s : Setup τ) : Machine τ := { Machine.initial s.dialect s.random s.clock with
  core := { Core.initial with
    memory := Memory.initial.overlay Memory.programStart s.program
    pc := ⟨Memory.programStart, Memory.programStart + s.program.size⟩ } }

namespace Emulator

/-! ### Instructions in a machine -/

theorem machine_exec (e : Emulator τ) (i : Instruction) : (e.exec i).state.machine = (e.machine.execute i).state := by
  simp only [exec]
  split <;> rfl

theorem machine_fetch (e : Emulator τ) : e.fetch.state.machine = e.machine.ahead 2 := by
  rcases Int.lt_or_le e.machine.core.pc.limit (e.machine.core.pc.addr + 2) with beyond | room
  · simp only [fetch, Core.fetch_of_lt beyond]
    rfl
  · simp only [fetch, Core.fetch_of_le room]
    rfl

/-! ### Starts -/

/-- What an emulator is when it has just been started around a machine. -/
structure Started (m : Machine τ) (e : Emulator τ) : Prop where
  machine : e.machine = { m with clock := m.clock.read }
  lastCycle : e.lastCycle = m.clock.read.now
  lastRefresh : e.lastRefresh = m.clock.read.now
  shown : e.shown = none
  frameCount : e.frameCount = 0
  frames : e.window.frames = #[]
  finished : e.finished = false

theorem Started.standing {s : Setup τ} {e : Emulator τ} (started : Started s.loaded e) : e.machine.core.Standing := by
  rw [started.machine]
  exact ⟨Int.natCast_nonneg 512, nofun, Nat.zero_le 16⟩

/-- The first word is made of the first two bytes of the program. -/
theorem Started.nextWord {s : Setup τ} {e : Emulator τ} (started : Started s.loaded e) (two : 2 ≤ s.program.size) :
    e.machine.nextWord = Word.ofBytes s.program[0] s.program[1] := by
  have one : 1 < s.program.size := two
  have zero : 0 < s.program.size := Nat.zero_lt_of_lt one
  simp [Machine.nextWord, started.machine, Setup.loaded, Memory.word, Memory.get_overlay, Memory.programStart, one, zero]

/-- The words of the program lie in memory from 0x200 on. -/
theorem Started.word {s : Setup τ} {e : Emulator τ} (started : Started s.loaded e) (fits : s.program.size ≤ Core.room)
    {i : Nat} (inside : i + 1 < s.program.size) :
    e.machine.core.memory.word (0x200 + i) = Word.ofBytes s.program[i] s.program[i + 1] := by
  rw [started.machine]
  exact Memory.initial.word_overlay fits inside

variable [Time τ]

/-- What the core keeps through fetching and executing it keeps through everything. -/
theorem Invariant.of_core {P : Core → Prop} (advance : ∀ {c : Core}, P c → P { c with pc := c.pc.advance })
    (flow : ∀ {m : Machine τ} {i : Instruction} {c : Core}, P m.core → m.Flow i c → P c) :
    Invariant fun e : Emulator τ => P e.machine.core where
  timers holds := holds
  display {e} now holds := by
    obtain ⟨dirty, machine⟩ := e.machine_syncDisplay now
    rw [machine]
    exact holds
  stop holds := holds
  pace _ _ _ _ _ _ holds := holds
  fetch holds := by rw [machine_fetch]; exact advance holds
  exec i holds := by rw [machine_exec]; exact flow holds (Machine.execute_flow _ i)
  finish holds := holds
  paint _ _ _ holds := holds
  clear holds := holds

theorem started_of_start {m : Machine τ} {rate : Int} {isOpen : Bool} {speaker : Speaker} {journal : Journal}
    {e : Emulator τ} (started : start m rate ⟨isOpen, #[]⟩ speaker journal = .ok e) : Started m e := by
  unfold start at started
  split at started
  · cases started
    exact ⟨rfl, rfl, rfl, rfl, rfl, rfl, rfl⟩
  · cases started

theorem pace_of_start {m : Machine τ} {rate : Int} {window : Window} {speaker : Speaker} {journal : Journal}
    {e : Emulator τ} (started : start m rate window speaker journal = .ok e) :
    Time.period rate = .ok e.interval ∧ e.cycles = 0 := by
  unfold start at started
  split at started
  next interval paced =>
    cases started
    exact ⟨paced, rfl⟩
  next => cases started

/-- An emulator with a program is one that was started around the machine with the program. -/
theorem start_of_ofProgram {s : Setup τ} {e : Emulator τ} (started : ofProgram s = .ok e) :
    s.program.size ≤ Core.room ∧ ∃ journal, start s.loaded s.rate ⟨s.isOpen, #[]⟩ .silent journal = .ok e := by
  unfold ofProgram Machine.load Core.load at started
  by_cases beyond : Core.room < s.program.size
  · simp only [if_pos beyond, reduceCtorEq] at started
  · simp only [if_neg beyond] at started
    split at started
    next begun =>
      cases started
      exact ⟨Nat.not_lt.1 beyond, _, begun⟩
    next => cases started

theorem started_of_ofProgram {s : Setup τ} {e : Emulator τ} (started : ofProgram s = .ok e) : Started s.loaded e := by
  obtain ⟨_, journal, begun⟩ := start_of_ofProgram started
  exact started_of_start begun

theorem pace_of_ofProgram {s : Setup τ} {e : Emulator τ} (started : ofProgram s = .ok e) :
    Time.period s.rate = .ok e.interval ∧ e.cycles = 0 := by
  obtain ⟨_, journal, begun⟩ := start_of_ofProgram started
  exact pace_of_start begun

/-- Every program that fits can be started, at any rate that has a period. -/
theorem exists_ofProgram {s : Setup τ} {interval : τ} (fits : s.program.size ≤ Core.room)
    (paced : Time.period s.rate = .ok interval) : ∃ e, ofProgram s = .ok e := by
  have under : ¬ Core.room < s.program.size := Nat.not_lt.2 fits
  simp only [ofProgram, Machine.load, Machine.initial, Core.load, Core.initial, if_neg under, start, paced]
  exact ⟨_, rfl⟩

theorem exists_plain (program : Array Byte) (fits : program.size ≤ Core.room) :
    ∃ e, ofProgram (.plain program) = .ok e ∧ Started (Setup.plain program).loaded e := by
  have paced : Time.period (Setup.plain program).rate = .ok (1 / 500 : Rat) := rfl
  obtain ⟨e, started⟩ := exists_ofProgram fits paced
  exact ⟨e, started, started_of_ofProgram started⟩

theorem exists_plain_wait : ∃ e, ofProgram (.plain #[0xF0, 0x0A]) = .ok e ∧
    Started (Setup.plain #[0xF0, 0x0A]).loaded e ∧
    e.machine.nextWord = Instruction.encode (.waitKey 0) ∧ e.machine.core.pc = ⟨512, 514⟩ := by
  obtain ⟨e, starts, started⟩ := exists_plain #[0xF0, 0x0A] (by decide)
  have bytes : Word.ofBytes 0xF0 0x0A = Instruction.encode (.waitKey 0) := by decide
  exact ⟨e, starts, started, (started.nextWord (by decide)).trans bytes, by rw [started.machine]; rfl⟩

theorem Reachable.of_ofProgram {s : Setup τ} {e : Emulator τ} (started : ofProgram s = .ok e) : e.Reachable s :=
  ⟨e, false, started, .nil⟩

theorem Reachable.standing {s : Setup τ} {e : Emulator τ} (reached : e.Reachable s) : e.machine.core.Standing := by
  obtain ⟨start, ended, started, run⟩ := reached
  have inv : Invariant fun e : Emulator τ => e.machine.core.Standing :=
    .of_core Core.Standing.advance Core.Standing.flow
  exact inv.of_run run (started_of_ofProgram started).standing

end Emulator

end Chip8
